import ManifestAtlas.Manifest.CodeRef

/-!
# The business logic of a module

Flows with their steps, rules, state machines and pseudocode.  Identifiers are
free text and need not be unique: a lookup takes the first entry that matches.

Main statements: the steps of a flow in execution order are a rearrangement of
its steps (`Flow.orderedSteps_perm`), ascending in their order number
(`Flow.orderedSteps_sorted`).
-/

namespace ManifestAtlas

/-- How important a rule is. -/
inductive Priority where
  | high
  | medium
  | low
  deriving DecidableEq, Repr

/-- A business rule. -/
structure Rule where
  id : String
  name : String
  priority : Priority
  category : Option String
  description : Option String
  constraints : List String
  effects : List String
  impactedFields : List String
  codeRef : Option CodeRef
  deriving DecidableEq, Repr

/-- A step of a flow, with the identifiers of the rules that it applies. -/
structure Step where
  id : Option String
  order : Int64
  name : String
  description : Option String
  rules : List String
  codeRef : Option CodeRef
  deriving DecidableEq, Repr

/-- A business process.  Its steps are listed in any order. -/
structure Flow where
  id : String
  name : String
  description : Option String
  trigger : Option String
  steps : List Step
  codeRef : Option CodeRef
  deriving DecidableEq, Repr

/-- A state of a state machine. -/
structure State where
  id : String
  name : String
  description : Option String
  initial : Bool
  final : Bool
  deriving DecidableEq, Repr

/-- A transition between two states, given by their identifiers. -/
structure Transition where
  source : String
  target : String
  trigger : Option String
  description : Option String
  deriving DecidableEq, Repr

/-- A finite state machine, which usually describes the life of an entity. -/
structure StateMachine where
  id : String
  name : String
  description : Option String
  entity : Option String
  states : List State
  transitions : List Transition
  deriving DecidableEq, Repr

/-- A parameter of an operation. -/
structure Param where
  name : String
  type : Option String
  description : Option String
  deriving DecidableEq, Repr

/-- What a line of pseudocode does. -/
inductive PseudoStepKind where
  | comment
  | action
  | condition
  | loop
  | call
  | return
  | error
  deriving DecidableEq, Repr

/-- A line of pseudocode, with its nesting level. -/
structure PseudoStep where
  indent : UInt64
  kind : PseudoStepKind
  text : String
  deriving DecidableEq, Repr

/-- Where a call leads to. -/
inductive CallKind where
  | api
  | db
  | internal
  | schedule
  deriving DecidableEq, Repr

/-- A call that an operation makes to the outside. -/
structure ExternalCall where
  kind : CallKind
  target : String
  description : Option String
  deriving DecidableEq, Repr

/-- An operation in pseudocode. -/
structure Pseudocode where
  id : String
  name : String
  description : Option String
  signature : Option String
  params : List Param
  returns : Option String
  codeRef : Option CodeRef
  steps : List PseudoStep
  calls : List ExternalCall
  deriving DecidableEq, Repr

/-- The name of a priority. -/
def Priority.name : Priority → String
  | .high => "high"
  | .medium => "medium"
  | .low => "low"

/-- How a priority is shown. -/
def Priority.label : Priority → String
  | .high => "高"
  | .medium => "中"
  | .low => "低"

/-- The name of a kind of pseudocode line. -/
def PseudoStepKind.name : PseudoStepKind → String
  | .comment => "comment"
  | .action => "action"
  | .condition => "condition"
  | .loop => "loop"
  | .call => "call"
  | .return => "return"
  | .error => "error"

/-- How a kind of pseudocode line is shown. -/
def PseudoStepKind.label : PseudoStepKind → String
  | .comment => "注释"
  | .action => "动作"
  | .condition => "条件"
  | .loop => "循环"
  | .call => "调用"
  | .return => "返回"
  | .error => "异常"

/-- The name of a kind of call. -/
def CallKind.name : CallKind → String
  | .api => "api"
  | .db => "db"
  | .internal => "internal"
  | .schedule => "schedule"

/-- How a kind of call is shown. -/
def CallKind.label : CallKind → String
  | .api => "API"
  | .db => "数据库"
  | .internal => "内部"
  | .schedule => "定时"

/-- Whether a step may stand in front of another one. -/
def Step.notAfter (a b : Step) : Bool :=
  decide (a.order ≤ b.order)

/-- The steps in execution order: by their order number, and steps with the same number as they
are listed. -/
def Flow.orderedSteps (flow : Flow) : List Step :=
  flow.steps.mergeSort Step.notAfter

/-- The first state with an identifier. -/
def StateMachine.state? (machine : StateMachine) (id : String) : Option State :=
  machine.states.find? (·.id == id)

/-- The first rule with an identifier. -/
def findRule? (rules : List Rule) (id : String) : Option Rule :=
  rules.find? (·.id == id)

theorem Step.notAfter_trans {a b c : Step} (hab : a.notAfter b = true) (hbc : b.notAfter c = true) :
    a.notAfter c = true := by
  simp only [Step.notAfter, decide_eq_true_eq, Int64.le_iff_toInt_le] at *
  omega

theorem Step.notAfter_total (a b : Step) : (a.notAfter b || b.notAfter a) = true := by
  simp only [Step.notAfter, Bool.or_eq_true, decide_eq_true_eq, Int64.le_iff_toInt_le]
  omega

theorem Flow.orderedSteps_perm (flow : Flow) : flow.orderedSteps.Perm flow.steps :=
  List.mergeSort_perm _ _

theorem Flow.orderedSteps_sorted (flow : Flow) :
    flow.orderedSteps.Pairwise fun a b => a.order ≤ b.order := by
  have htrans : ∀ a b c : Step, a.notAfter b = true → b.notAfter c = true → a.notAfter c = true :=
    fun _ _ _ => Step.notAfter_trans
  have h := @List.pairwise_mergeSort Step Step.notAfter htrans Step.notAfter_total flow.steps
  exact h.imp of_decide_eq_true

end ManifestAtlas
