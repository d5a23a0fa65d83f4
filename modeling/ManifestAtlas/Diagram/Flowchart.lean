import ManifestAtlas.Manifest.Project
import ManifestAtlas.Mermaid.FlowDiagram
import ManifestAtlas.Mermaid.NodeId
import ManifestAtlas.Text.Distinct

/-!
# The flowchart of a flow

From top to bottom: the title, what triggers the flow, and its steps in
execution order.  The place of the code hangs off the title on a dotted arrow,
apart from the path of execution.
-/

namespace ManifestAtlas

open Mermaid

/-- The rules that a step applies, each once and without blank ones: the rule itself, or its
identifier if there is no such rule. -/
def appliedRules (rules : List Rule) (step : Step) : List (String ⊕ Rule) :=
  (distinctVisible step.rules).map fun id =>
    match findRule? rules id with
    | some rule => .inr rule
    | none => .inl id

/-- How an applied rule is called: by its name, or by its identifier if it is unknown. -/
def appliedName : String ⊕ Rule → String
  | .inl id => id
  | .inr rule => rule.name

/-- The names of the rules that a step applies, each once. -/
def ruleNames (rules : List Rule) (step : Step) : List String :=
  distinct ((appliedRules rules step).map appliedName)

/-- The identifiers of unknown rules that the steps of a flow apply, step by step. -/
def unknownRules (rules : List Rule) (flow : Flow) : List String :=
  flow.orderedSteps.flatMap fun step =>
    (appliedRules rules step).filterMap fun
      | .inl id => some id
      | .inr _ => none

/-- The label of a step: its number and name, its description, and the rules that it applies. -/
def stepLabel (rules : List Rule) (step : Step) : String :=
  let title := s!"{step.order}. {step.name}"
  let description := (nonempty? step.description).elim "" fun d => "\n" ++ d
  let names := ruleNames rules step
  let applied := if names.isEmpty then "" else "\n规则：" ++ "、".intercalate names
  title ++ description ++ applied

/-- The node of the trigger. -/
def triggerNode : String := "trigger"

/-- The node that stands in for the steps of a flow without steps. -/
def noStepsNode : String := "no_steps"

/-- The node of the code place. -/
def codeNode : String := "code_ref"

/-- The node of the step at a position, counted from one. -/
def stepNode (i : Nat) : String :=
  s!"step_{i}"

/-- The statements for the steps from position `i` on, each with an arrow from the node before
it. -/
def stepStatements (rules : List Rule) (previous : String) (i : Nat) :
    List Step → List FlowStatement
  | [] => []
  | step :: steps =>
    .node (stepNode i) .box (stepLabel rules step) :: .arrow previous (stepNode i) ::
      stepStatements rules (stepNode i) (i + 1) steps

/-- The statements for all steps, or for the placeholder if there are none. -/
def executionStatements (rules : List Rule) : List Step → List FlowStatement
  | [] => [.node noStepsNode .box "暂无步骤", .arrow triggerNode noStepsNode]
  | steps => stepStatements rules triggerNode 1 steps

/-- The statements for the code place of a flow, if it shows as anything. -/
def codeStatements (title : String) (place : Option CodeRef) : List FlowStatement :=
  let code := displayPlace place
  if code.isEmpty then []
  else
    [.node codeNode .box ("代码：" ++ code), .dotted title codeNode,
      .style "aux" "fill:#fafafa,stroke:#bbb,color:#666", .assign [codeNode] "aux"]

/-- The diagram of a flow, with the rules of its module. -/
def flowDiagram (flow : Flow) (rules : List Rule) : FlowDiagram where
  direction := .topDown
  statements :=
    let title := nodeId "flow_" flow.id
    [.node title .box flow.name,
      .node triggerNode .round ("触发：" ++ (visible? flow.trigger).getD "-"),
      .arrow title triggerNode] ++
    executionStatements rules flow.orderedSteps ++ codeStatements title flow.codeRef

/-- The text of the flowchart of a flow. -/
def flowchart (flow : Flow) (rules : List Rule) : String :=
  (flowDiagram flow rules).text

end ManifestAtlas
