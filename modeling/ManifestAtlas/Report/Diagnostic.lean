/-!
# Diagnostics

A problem as it is shown to the user: what is wrong, where, in which context,
and what might help.  The severities and the word in front of suggestions can
be coloured for a terminal.
-/

namespace ManifestAtlas

/-- How bad a problem is, the worst first. -/
inductive Severity where
  | error
  | warning
  | note
  | help
  deriving DecidableEq, Repr

/-- A problem with its context. -/
structure Diagnostic where
  severity : Severity
  message : String
  context : List String
  suggestions : List String
  location : Option String
  deriving DecidableEq, Repr

/-- The word for a severity. -/
def Severity.word : Severity → String
  | .error => "error"
  | .warning => "warning"
  | .note => "note"
  | .help => "help"

/-- The word for a severity in its colour, for a terminal. -/
def Severity.colouredWord : Severity → String
  | .error => "\x1b[1;31merror\x1b[0m"
  | .warning => "\x1b[1;33mwarning\x1b[0m"
  | .note => "\x1b[1;36mnote\x1b[0m"
  | .help => "\x1b[1;32mhelp\x1b[0m"

/-- The word for a severity where a problem is shown without colours. -/
def Severity.plainWord : Severity → String
  | .error => "error"
  | .warning => "warning"
  | .note => "note"
  | .help => "help"

/-- The rank of a severity: the worse, the lower. -/
def Severity.rank : Severity → Nat
  | .error => 0
  | .warning => 1
  | .note => 2
  | .help => 3

/-- Whether a severity asks for action: an error or a warning. -/
def Severity.isAboveNote (severity : Severity) : Bool :=
  decide (severity.rank ≤ Severity.warning.rank)

/-- The word for a severity as a problem starts with it. -/
def Severity.show (severity : Severity) (coloured : Bool) : String :=
  if coloured then severity.colouredWord else severity.plainWord

/-- The word in front of the suggestions. -/
def helpPrefix (coloured : Bool) : String :=
  if coloured then "\x1b[1;32mhelp\x1b[0m" else "help"

namespace Diagnostic

/-- A problem without context. -/
def plain (severity : Severity) (message : String) : Diagnostic :=
  ⟨severity, message, [], [], none⟩

/-- Adds a line of context. -/
def withContext (d : Diagnostic) (line : String) : Diagnostic :=
  { d with context := d.context ++ [line] }

/-- Adds a suggestion. -/
def withSuggestion (d : Diagnostic) (line : String) : Diagnostic :=
  { d with suggestions := d.suggestions ++ [line] }

/-- Says where the problem lies. -/
def withLocation (d : Diagnostic) (location : String) : Diagnostic :=
  { d with location := some location }

/-- Suggestions with their numbers, counted from `i`. -/
def numbered : (i : Nat) → List String → List String
  | _, [] => []
  | i, line :: rest => s!"  {i}. {line}" :: numbered (i + 1) rest

/-- The lines of a problem. -/
def lines (d : Diagnostic) (coloured : Bool) : List String :=
  s!"{d.severity.show coloured}: {d.message}" ::
    (d.location.toList.map (fun place => s!"  --> {place}") ++
    d.context.map (fun line => s!"  = {line}") ++
    if d.suggestions.isEmpty then []
    else s!"{helpPrefix coloured}: consider:" :: numbered 1 d.suggestions)

/-- The text of a problem, each line ended by a line feed. -/
def text (d : Diagnostic) (coloured : Bool) : String :=
  String.join ((d.lines coloured).map (· ++ "\n"))

end Diagnostic

end ManifestAtlas
