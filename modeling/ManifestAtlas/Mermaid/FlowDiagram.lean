import ManifestAtlas.Mermaid.Label
import ManifestAtlas.Text.Lines

/-!
# Flow diagrams

The part of the flow-diagram language that the project uses: nodes with a
label, arrows between them, and classes of nodes with a style.  Labels are kept
as plain text and escaped when the diagram is written.
-/

namespace ManifestAtlas.Mermaid

/-- The way in which a flow diagram runs. -/
inductive Direction where
  | leftToRight
  | topDown
  deriving DecidableEq, Repr

/-- The outline of a node. -/
inductive Shape where
  | box
  | round
  deriving DecidableEq, Repr

/-- A statement of a flow diagram. -/
inductive FlowStatement where
  | node (id : String) (shape : Shape) (label : String)
  | arrow (source target : String)
  | dotted (source target : String)
  | style (name : String) (properties : String)
  | assign (ids : List String) (name : String)
  deriving DecidableEq, Repr

/-- A flow diagram. -/
structure FlowDiagram where
  direction : Direction
  statements : List FlowStatement
  deriving DecidableEq, Repr

/-- The first line of a flow diagram. -/
def Direction.header : Direction → String
  | .leftToRight => "flowchart LR"
  | .topDown => "flowchart TD"

/-- A label between double quotes. -/
def quotedLabel (label : String) : String :=
  "\"" ++ escapeLabel label ++ "\""

/-- A label inside the brackets that draw a shape. -/
def Shape.enclose : Shape → String → String
  | .box, label => "[" ++ quotedLabel label ++ "]"
  | .round, label => "(" ++ quotedLabel label ++ ")"

/-- The text of a statement. -/
def FlowStatement.text : FlowStatement → String
  | .node id shape label => id ++ shape.enclose label
  | .arrow source target => s!"{source} --> {target}"
  | .dotted source target => s!"{source} -.-> {target}"
  | .style name properties => s!"classDef {name} {properties}"
  | .assign ids name => "class " ++ ",".intercalate ids ++ " " ++ name

/-- The text of a flow diagram: its header, and a line for each statement. -/
def FlowDiagram.text (diagram : FlowDiagram) : String :=
  ((Lines.headed diagram.direction.header).statements
    (diagram.statements.map FlowStatement.text)).text

end ManifestAtlas.Mermaid
