import ManifestAtlas.Diagram.Cycles
import ManifestAtlas.Report.Finding

/-!
# The lint

The diagrams and the outline take a manifest as it is: an unknown identifier is
drawn as such, and of several entries with one identifier the first one counts.
The lint reports where that happens, and where different identifiers share one
node of the dependency diagram.
-/

namespace ManifestAtlas

/-- The identifiers that occur more than once, in the order of their second occurrence; `before`
are the ones that came earlier. -/
def repeated (before : List String) : List String → List String
  | [] => []
  | id :: ids =>
    if before.count id = 1 then id :: repeated (id :: before) ids else repeated (id :: before) ids

/-- A finding for each identifier that occurs more than once. -/
def duplicateFindings (kind : IdKind) (scope : Scope) (ids : List String) : List Finding :=
  (repeated [] ids).map (.duplicateId kind scope)

/-- A finding for each node of the diagram that several identifiers share. -/
def sharedNodeFindings (kind : NodeKind) (tag : String) (ids : List String) : List Finding :=
  (distinct (ids.map (nodeId tag))).filterMap fun node =>
    let sharing := distinct (ids.filter fun id => nodeId tag id = node)
    if 1 < sharing.length then some (.sharedNode kind node sharing) else none

/-- The findings about dependencies on unknown modules. -/
def externalFindings (graph : ModuleGraph) : List Finding :=
  graph.externals.map fun d =>
    .externalDependency d
      ((graph.modules.filter fun m => m.dependencies.contains d).map (·.id))

/-- The findings about rules that a step names. -/
def stepRuleFindings (module : Module) (flow : Flow) (step : Step) : List Finding :=
  (step.rules.filter fun id => (module.rule? id).isNone).map
    (.unknownRule module.id flow.id step.name)

/-- The findings about steps in execution order; `before` are the order numbers of earlier
steps. -/
def stepFindings (module : Module) (flow : Flow) (before : List Int64) : List Step → List Finding
  | [] => []
  | step :: steps =>
    (if before.contains step.order then [.sharedOrder module.id flow.id step.order] else []) ++
    stepRuleFindings module flow step ++ stepFindings module flow (step.order :: before) steps

/-- The findings about a flow. -/
def flowFindings (module : Module) (flow : Flow) : List Finding :=
  (if flow.steps.isEmpty then [.noSteps module.id flow.id] else []) ++
  stepFindings module flow [] flow.orderedSteps

/-- The findings about where a state machine starts. -/
def initialFindings (module : Module) (machine : StateMachine) : List Finding :=
  match (machine.states.filter (·.initial)).map (·.id), machine.states.head? with
  | first :: other :: others, _ => [.severalInitial module.id machine.id first (other :: others)]
  | [], some state => [.noInitial module.id machine.id state.id]
  | _, _ => []

/-- The findings about the ends of a transition. -/
def transitionFindings (module : Module) (machine : StateMachine) (t : Transition) : List Finding :=
  ([t.source, t.target].filter fun id => (machine.state? id).isNone).map
    (.unknownState module.id machine.id t.source t.target)

/-- The findings about a state machine. -/
def stateMachineFindings (module : Module) (machine : StateMachine) : List Finding :=
  (if machine.states.isEmpty then [.noStates module.id machine.id] else []) ++
  duplicateFindings .state (.stateMachine module.id machine.id) (machine.states.map (·.id)) ++
  initialFindings module machine ++
  machine.transitions.flatMap (transitionFindings module machine)

/-- The findings about a module on its own. -/
def moduleFindings (module : Module) : List Finding :=
  duplicateFindings .flow (.module module.id) (module.flows.map (·.id)) ++
  duplicateFindings .rule (.module module.id) (module.rules.map (·.id)) ++
  duplicateFindings .stateMachine (.module module.id) (module.stateMachines.map (·.id)) ++
  module.flows.flatMap (flowFindings module) ++
  module.stateMachines.flatMap (stateMachineFindings module)

/-- What the lint found, in the order of the manifest. -/
structure LintReport where
  findings : List Finding
  deriving DecidableEq, Repr

/-- Checks a manifest. -/
def lint (manifest : Manifest) : LintReport where
  findings :=
    let graph := ModuleGraph.build manifest
    let ids := manifest.modules.map (·.id)
    duplicateFindings .module .manifest ids ++
    sharedNodeFindings .modules moduleTag ids ++
    sharedNodeFindings .dependencies externalTag graph.externals ++
    externalFindings graph ++
    graph.cycles.map .dependencyCycle ++
    manifest.modules.flatMap moduleFindings

namespace LintReport

/-- The reports of the findings. -/
def diagnostics (report : LintReport) : List Diagnostic :=
  report.findings.map Finding.diagnostic

/-- The number of findings of a severity. -/
def count (report : LintReport) (severity : Severity) : Nat :=
  report.diagnostics.countP fun d => d.severity = severity

/-- Whether nothing worse than a note was found. -/
def isClean (report : LintReport) : Bool :=
  report.diagnostics.all fun d => !d.severity.isAboveNote

/-- A number with a word, which gets an `s` unless the number is one. -/
def plural (n : Nat) (word : String) : String :=
  if n = 1 then s!"{n} {word}" else s!"{n} {word}s"

/-- The number of warnings and notes. -/
def summary (report : LintReport) : String :=
  plural (report.count .warning) "warning" ++ ", " ++ plural (report.count .note) "note"

end LintReport

end ManifestAtlas
