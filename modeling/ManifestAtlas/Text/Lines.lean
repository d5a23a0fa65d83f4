/-!
# Lines of output

A text is put together line by line.  Statements of a diagram stand four spaces
deep; the bullets of an outline are nested by two spaces for each level, up to
a fixed depth.

Main statement: adding a line makes a sequence of lines one longer
(`Lines.length_push`).
-/

namespace ManifestAtlas

/-- The lines of a text, in order. -/
structure Lines where
  lines : List String
  deriving DecidableEq, Repr

namespace Lines

/-- The deepest level that a nested line is indented to. -/
def maxNesting : Nat := 32

/-- A statement, indented. -/
def statementLine (text : String) : String :=
  "    " ++ text

/-- A line at a nesting level. -/
def nestedLine (depth : Nat) (text : String) : String :=
  String.ofList (List.replicate (2 * min depth maxNesting) ' ') ++ text

/-- No lines. -/
def empty : Lines :=
  ⟨[]⟩

/-- A single line. -/
def headed (header : String) : Lines :=
  ⟨[header]⟩

/-- Adds a line as it is. -/
def push (l : Lines) (line : String) : Lines :=
  ⟨l.lines ++ [line]⟩

/-- Adds a statement. -/
def statement (l : Lines) (text : String) : Lines :=
  l.push (statementLine text)

/-- Adds statements, in order. -/
def statements (l : Lines) (texts : List String) : Lines :=
  ⟨l.lines ++ texts.map statementLine⟩

/-- Adds a line at a nesting level. -/
def nested (l : Lines) (depth : Nat) (text : String) : Lines :=
  l.push (nestedLine depth text)

/-- The number of lines. -/
def length (l : Lines) : Nat :=
  l.lines.length

/-- Whether there are no lines. -/
def isEmpty (l : Lines) : Bool :=
  l.lines.isEmpty

/-- The whole text: the lines with a line feed between them, and one at the end. -/
def text (l : Lines) : String :=
  "\n".intercalate l.lines ++ "\n"

theorem length_push (l : Lines) (line : String) : (l.push line).length = l.length + 1 := by
  simp [length, push]

end Lines

end ManifestAtlas
