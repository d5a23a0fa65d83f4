import ManifestAtlas.Report.Diagnostic

/-!
# Findings of the lint

What the lint can find in a manifest, and how each finding is reported.
-/

namespace ManifestAtlas

/-- The kinds of entries whose identifiers should differ. -/
inductive IdKind where
  | module
  | flow
  | rule
  | stateMachine
  | state
  deriving DecidableEq, Repr

/-- The part of a manifest in which identifiers should differ. -/
inductive Scope where
  | manifest
  | module (id : String)
  | stateMachine (module machine : String)
  deriving DecidableEq, Repr

/-- The kinds of nodes of the dependency diagram. -/
inductive NodeKind where
  | modules
  | dependencies
  deriving DecidableEq, Repr

/-- A finding, by the identifiers that it is about. -/
inductive Finding where
  | duplicateId (kind : IdKind) (scope : Scope) (id : String)
  | sharedNode (kind : NodeKind) (node : String) (ids : List String)
  | externalDependency (id : String) (dependants : List String)
  | dependencyCycle (ids : List String)
  | noSteps (module flow : String)
  | sharedOrder (module flow : String) (order : Int64)
  | unknownRule (module flow step rule : String)
  | noStates (module machine : String)
  | severalInitial (module machine first : String) (others : List String)
  | noInitial (module machine first : String)
  | unknownState (module machine source target id : String)
  deriving DecidableEq, Repr

/-- The word for a kind of entries. -/
def IdKind.word : IdKind → String
  | .module => "module"
  | .flow => "flow"
  | .rule => "rule"
  | .stateMachine => "state machine"
  | .state => "state"

/-- The wording of a scope. -/
def Scope.word : Scope → String
  | .manifest => "manifest"
  | .module id => s!"module `{id}`"
  | .stateMachine owner machine => s!"state machine `{owner}/{machine}`"

/-- The word for a kind of nodes. -/
def NodeKind.word : NodeKind → String
  | .modules => "modules"
  | .dependencies => "dependencies"

/-- Texts with a comma between them. -/
def commaList (texts : List String) : String :=
  ", ".intercalate texts

/-- A text between backticks. -/
def ticked (text : String) : String :=
  s!"`{text}`"

namespace Finding

/-- How bad a finding is. -/
def severity : Finding → Severity
  | .externalDependency .. | .dependencyCycle .. | .noSteps .. | .sharedOrder ..
  | .noInitial .. => .note
  | _ => .warning

/-- What a finding says. -/
def message : Finding → String
  | .duplicateId kind scope id => s!"duplicate {kind.word} id `{id}` in {scope.word}"
  | .sharedNode kind node ids =>
    s!"{kind.word} {commaList (ids.map ticked)} share diagram node `{node}`"
  | .externalDependency id _ => s!"dependency `{id}` is not a module of this manifest"
  | .dependencyCycle ids => "dependency cycle: " ++ " -> ".intercalate ids
  | .noSteps _ flow => s!"flow `{flow}` has no steps"
  | .sharedOrder _ _ order => s!"several steps share order {order}"
  | .unknownRule _ _ _ rule => s!"step references unknown rule `{rule}`"
  | .noStates _ machine => s!"state machine `{machine}` has no states"
  | .severalInitial _ _ first others =>
    s!"several initial states: {commaList (first :: others)}"
  | .noInitial .. => "no state is flagged initial"
  | .unknownState _ _ _ _ id => s!"transition references unknown state `{id}`"

/-- Where a flow is. -/
def inFlow (module flow : String) : String :=
  s!"in flow `{module}/{flow}`"

/-- Where a state machine is. -/
def inMachine (module machine : String) : String :=
  s!"in state machine `{module}/{machine}`"

/-- The context of a finding. -/
def context : Finding → List String
  | .duplicateId .. => ["only the first one is used when resolving references"]
  | .sharedNode .. => ["the dependency graph will draw them as a single node"]
  | .externalDependency _ dependants =>
    [s!"required by: {commaList dependants}", "it is drawn as an external/unknown node"]
  | .dependencyCycle _ => []
  | .noSteps module flow => [inFlow module flow, "the flowchart shows a placeholder node"]
  | .sharedOrder module flow _ => [inFlow module flow, "they are drawn in array order"]
  | .unknownRule module flow step _ => [s!"{inFlow module flow}, step `{step}`"]
  | .noStates module machine => [inMachine module machine]
  | .severalInitial module machine first _ =>
    [inMachine module machine, s!"only `{first}` gets the start arrow"]
  | .noInitial module machine first =>
    [inMachine module machine, s!"`{first}` is used as the initial state"]
  | .unknownState module machine source target _ =>
    [s!"{inMachine module machine}, transition `{source} -> {target}`"]

/-- What would mend a finding. -/
def suggestions : Finding → List String
  | .sharedNode .. => ["Rename one of the ids so they differ in letters or digits"]
  | .dependencyCycle _ => ["Break the cycle by moving shared logic into its own module"]
  | .unknownRule module _ _ rule =>
    [s!"Add rule `{rule}` to module `{module}` or remove the reference"]
  | .unknownState _ _ _ _ id => [s!"Declare state `{id}` or fix the transition"]
  | _ => []

/-- The report of a finding. -/
def diagnostic (f : Finding) : Diagnostic :=
  ⟨f.severity, f.message, f.context, f.suggestions, none⟩

end Finding

end ManifestAtlas
