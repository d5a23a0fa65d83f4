import ManifestAtlas.Mermaid.Label
import ManifestAtlas.Text.Lines

/-!
# State diagrams

The part of the state-diagram language that the project uses: states declared
under a short name, transitions between such names, and arrows from the start
and to the end.  Labels and triggers are kept as plain text and escaped when the
diagram is written.
-/

namespace ManifestAtlas.Mermaid

/-- A statement of a state diagram. -/
inductive StateStatement where
  | declare (label : String) (name : String)
  | start (name : String)
  | transition (source target : String) (trigger : Option String)
  | finish (name : String)
  deriving DecidableEq, Repr

/-- A state diagram. -/
structure StateDiagram where
  statements : List StateStatement
  deriving DecidableEq, Repr

/-- The text of a statement. -/
def StateStatement.text : StateStatement → String
  | .declare label name => s!"state \"{escapeLabel label}\" as {name}"
  | .start name => s!"[*] --> {name}"
  | .transition source target none => s!"{source} --> {target}"
  | .transition source target (some trigger) => s!"{source} --> {target} : {escapeLabel trigger}"
  | .finish name => s!"{name} --> [*]"

/-- The text of a state diagram: its header, and a line for each statement. -/
def StateDiagram.text (diagram : StateDiagram) : String :=
  ((Lines.headed "stateDiagram-v2").statements (diagram.statements.map StateStatement.text)).text

end ManifestAtlas.Mermaid
