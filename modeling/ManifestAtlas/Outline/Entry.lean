import ManifestAtlas.Manifest.CodeRef
import ManifestAtlas.Text.Distinct
import ManifestAtlas.Text.Lines
import ManifestAtlas.Text.Markdown

/-!
# Entries of an outline

An outline is a list of entries: headings of up to six levels, and bullets that
are nested to any depth.  The other functions of this module build the entries
that come up again and again: a field with its label, a list on one line, and
the place of some code.

Main statement: an outline has one line for each entry
(`outlineLines_length`).
-/

namespace ManifestAtlas

/-- An entry of an outline. -/
inductive Entry where
  | heading (level : Nat) (text : String)
  | bullet (depth : Nat) (text : String)
  deriving DecidableEq, Repr

/-- The deepest level of a heading. -/
def maxHeadingLevel : Nat := 6

/-- The line of a heading. -/
def headingLine (level : Nat) (text : String) : String :=
  String.ofList (List.replicate (max 1 (min level maxHeadingLevel)) '#') ++ " " ++ text

/-- The line of an entry. -/
def Entry.line : Entry → String
  | .heading level text => headingLine level text
  | .bullet depth text => Lines.nestedLine depth ("- " ++ text)

/-- The lines of an outline. -/
def outlineLines (entries : List Entry) : Lines :=
  ⟨entries.map Entry.line⟩

/-- A name with an identifier behind it. -/
def titled (name id : String) : String :=
  s!"{escapeOutline name}（{escapeOutline id}）"

/-- A label with a count. -/
def counted (label : String) (count : Nat) : String :=
  s!"{label}（{count}）"

/-- A bullet for a labelled text, if there is one that is not blank. -/
def fieldEntry (depth : Nat) (label : String) (text : Option String) : List Entry :=
  (visible? text).toList.map fun t => .bullet depth s!"{label}：{escapeOutline t}"

/-- A bullet for the place of some code, if it shows as anything. -/
def placeEntry (depth : Nat) (place : Option CodeRef) : List Entry :=
  let code := displayPlace place
  if code.isEmpty then [] else [.bullet depth s!"代码位置：{inlineCode code}"]

/-- A bullet that lists texts on one line, each once and without blank ones, after their
count. -/
def inlineListEntry (depth : Nat) (label : String) (texts : List String) (separator : String) :
    Entry :=
  let items := distinctVisible texts
  if items.isEmpty then .bullet depth (counted label 0)
  else
    .bullet depth
      s!"{counted label items.length}：{separator.intercalate (items.map escapeOutline)}"

/-- A bullet with a count, followed by one bullet for each text. -/
def listEntries (depth : Nat) (label : String) (texts : List String) : List Entry :=
  .bullet depth (counted label texts.length) :: texts.map (.bullet (depth + 1))

/-- A text in parts, the second one behind a separator and only if it is there. -/
def extended (text separator : String) (more : Option String) : String :=
  text ++ more.elim "" fun m => separator ++ escapeOutline m

theorem outlineLines_length (entries : List Entry) :
    (outlineLines entries).length = entries.length := by
  simp [outlineLines, Lines.length]

end ManifestAtlas
