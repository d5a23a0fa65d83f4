import Mathlib
import ManifestAtlas.Proofs.DependencyEdges
import ManifestAtlas.Proofs.FlowchartPath
import ManifestAtlas.Proofs.LintFindings
import ManifestAtlas.Proofs.StateDrafts

/-!
# What the lint says of the diagrams

The lint goes through a manifest on its own and says what the diagrams will
look like: which dependencies are drawn as external nodes and for whom, where a
machine starts, which states are not declared, and where a placeholder stands.
`lint_describes_diagrams` says that the diagrams look like that.

There are four groups.

* The report by parts.  `Finding.flow?` and `Finding.machine?` name the flow or
  the machine that a finding is about; what a report says of the flows and of
  the machines is what it says of each of them, one after the other
  (`filter_flow?_lint`, `filter_machine?_lint`).
* External dependencies, against the edges of the dependency graph
  (`externalFindings_build`).
* Flows and state machines, against their diagrams.
* The main statement.
-/

namespace ManifestAtlas

open Mermaid
open ModuleGraph (build dependenciesOf externalsOf)

/-! ## The report by parts -/

/-- The flows of a manifest, each with its module. -/
def Manifest.flows (manifest : Manifest) : List (Module × Flow) :=
  manifest.modules.flatMap fun module => module.flows.map fun flow => (module, flow)

/-- The state machines of a manifest, each with its module. -/
def Manifest.machines (manifest : Manifest) : List (Module × StateMachine) :=
  manifest.modules.flatMap fun module => module.stateMachines.map fun machine => (module, machine)

theorem mem_flows {manifest : Manifest} {module : Module} {flow : Flow} :
    (module, flow) ∈ manifest.flows ↔ module ∈ manifest.modules ∧ flow ∈ module.flows := by
  simp [Manifest.flows]

theorem mem_machines {manifest : Manifest} {module : Module} {machine : StateMachine} :
    (module, machine) ∈ manifest.machines ↔
      module ∈ manifest.modules ∧ machine ∈ module.stateMachines := by
  simp [Manifest.machines]

namespace Finding

/-- The module and the flow that a finding is about. -/
def flow? : Finding → Option (String × String)
  | .noSteps module flow | .sharedOrder module flow _ | .unknownRule module flow _ _ =>
    some (module, flow)
  | _ => none

/-- The module and the state machine that a finding is about. -/
def machine? : Finding → Option (String × String)
  | .duplicateId _ (.stateMachine module machine) _ | .noStates module machine
  | .severalInitial module machine _ _ | .noInitial module machine _
  | .unknownState module machine _ _ _ => some (module, machine)
  | _ => none

/-- Whether a finding is about an external dependency. -/
def isExternal : Finding → Bool
  | .externalDependency _ _ => true
  | _ => false

/-- The undeclared state that a finding is about. -/
def unknownState? : Finding → Option String
  | .unknownState _ _ _ _ id => some id
  | _ => none

/-- The state that a finding names as the start of a machine. -/
def start? : Finding → Option String
  | .severalInitial _ _ first _ | .noInitial _ _ first => some first
  | _ => none

end Finding

section

variable {manifest : Manifest} {module : Module} {f : Finding}

theorem parts_of_mem_graphFindings (h : f ∈ graphFindings manifest) :
    f.flow? = none ∧ f.machine? = none := by
  simp only [graphFindings, List.mem_append] at h
  rcases h with (((h | h) | h) | h) | h
  · obtain ⟨id, _, rfl⟩ := mem_duplicateFindings.1 h
    exact ⟨rfl, rfl⟩
  · obtain ⟨node, sharing, rfl⟩ := exists_of_mem_sharedNodeFindings h
    exact ⟨rfl, rfl⟩
  · obtain ⟨node, sharing, rfl⟩ := exists_of_mem_sharedNodeFindings h
    exact ⟨rfl, rfl⟩
  · obtain ⟨id, dependants, rfl⟩ := exists_of_mem_externalFindings h
    exact ⟨rfl, rfl⟩
  · obtain ⟨ids, rfl⟩ := exists_of_mem_cycles h
    exact ⟨rfl, rfl⟩

theorem parts_of_mem_duplicateFindings {kind : IdKind} {ids : List String}
    (h : f ∈ duplicateFindings kind (.module module.id) ids) :
    f.flow? = none ∧ f.machine? = none := by
  obtain ⟨id, _, rfl⟩ := mem_duplicateFindings.1 h
  exact ⟨rfl, rfl⟩

theorem parts_of_mem_flowFindings {flow : Flow} (h : f ∈ flowFindings module flow) :
    f.flow? = some (module.id, flow.id) ∧ f.machine? = none := by
  cases foundInFlow_of_mem h <;> exact ⟨rfl, rfl⟩

theorem parts_of_mem_stateMachineFindings {machine : StateMachine}
    (h : f ∈ stateMachineFindings module machine) :
    f.flow? = none ∧ f.machine? = some (module.id, machine.id) := by
  cases foundInMachine_of_mem h <;> exact ⟨rfl, rfl⟩

/-- A selection that takes no finding about identifiers or dependencies sees the flows and the
state machines only. -/
private theorem filter_parts_lint {p : Finding → Bool}
    (hp : ∀ f : Finding, f.flow? = none ∧ f.machine? = none → p f = false) :
    (lint manifest).findings.filter p = manifest.modules.flatMap fun module =>
      (module.flows.flatMap (flowFindings module)).filter p ++
        (module.stateMachines.flatMap (stateMachineFindings module)).filter p := by
  have hgraph : (graphFindings manifest).filter p = [] :=
    filter_findings_eq_nil fun f hf => hp f (parts_of_mem_graphFindings hf)
  have hduplicates : ∀ (module : Module) kind ids,
      (duplicateFindings kind (.module module.id) ids).filter p = [] :=
    fun module kind ids => filter_findings_eq_nil fun f hf =>
      hp f (parts_of_mem_duplicateFindings hf)
  rw [lint_findings, List.filter_append, hgraph, List.nil_append, List.filter_flatMap]
  refine List.flatMap_congr fun module _ => ?_
  simp only [moduleFindings, List.filter_append, hduplicates, List.nil_append]

end

/-- What a report says of the flows is what it says of each of them, one after the other. -/
theorem filter_flow?_lint (manifest : Manifest) :
    (lint manifest).findings.filter (·.flow?.isSome) =
      manifest.flows.flatMap fun p => flowFindings p.1 p.2 := by
  rw [filter_parts_lint fun f hf => by rw [hf.1]; rfl, Manifest.flows, List.flatMap_assoc]
  refine List.flatMap_congr fun module _ => ?_
  have hflows : ∀ f ∈ module.flows.flatMap (flowFindings module), f.flow?.isSome = true := by
    intro f hf
    obtain ⟨flow, _, hf⟩ := List.mem_flatMap.1 hf
    rw [(parts_of_mem_flowFindings hf).1]
    rfl
  have hmachines : (module.stateMachines.flatMap (stateMachineFindings module)).filter
      (·.flow?.isSome) = [] := by
    refine filter_findings_eq_nil fun f hf => ?_
    obtain ⟨machine, _, hf⟩ := List.mem_flatMap.1 hf
    rw [(parts_of_mem_stateMachineFindings hf).1]
    rfl
  rw [List.filter_eq_self.2 hflows, hmachines, List.append_nil, List.flatMap_map]

/-- What a report says of the machines is what it says of each of them, one after the other. -/
theorem filter_machine?_lint (manifest : Manifest) :
    (lint manifest).findings.filter (·.machine?.isSome) =
      manifest.machines.flatMap fun p => stateMachineFindings p.1 p.2 := by
  rw [filter_parts_lint fun f hf => by rw [hf.2]; rfl, Manifest.machines, List.flatMap_assoc]
  refine List.flatMap_congr fun module _ => ?_
  have hmachines : ∀ f ∈ module.stateMachines.flatMap (stateMachineFindings module),
      f.machine?.isSome = true := by
    intro f hf
    obtain ⟨machine, _, hf⟩ := List.mem_flatMap.1 hf
    rw [(parts_of_mem_stateMachineFindings hf).2]
    rfl
  have hflows : (module.flows.flatMap (flowFindings module)).filter (·.machine?.isSome) = [] := by
    refine filter_findings_eq_nil fun f hf => ?_
    obtain ⟨flow, _, hf⟩ := List.mem_flatMap.1 hf
    rw [(parts_of_mem_flowFindings hf).2]
    rfl
  rw [List.filter_eq_self.2 hmachines, hflows, List.nil_append, List.flatMap_map]

/-! ## External dependencies -/

/-- The modules with an edge to an external node, in the order of the edges. -/
def ModuleGraph.dependantsOf (graph : ModuleGraph) (id : String) : List String :=
  (graph.nodePairs.filter fun pair => pair.2 = .external id).map fun pair => pair.1.rawId

section

variable {manifest : Manifest} {id : String}

theorem standsFor_eq_external_iff (hid : id ∈ (build manifest).externals) {other : String} :
    manifest.standsFor other = .external id ↔ other = id := by
  have hunknown : manifest.module? id = none := module?_eq_none (mem_externalsOf.1 hid).2
  rw [Manifest.standsFor]
  constructor
  · intro h
    split at h
    · cases h
    · exact DependencyNode.external.inj h
  · rintro rfl
    rw [hunknown]

/-- A module has at most one edge to an external node. -/
theorem filter_eq_of_mem_externals (hid : id ∈ (build manifest).externals) (module : Module) :
    (dependenciesOf module).filter (fun other => manifest.standsFor other = .external id) =
      if module.dependencies.contains id then [id] else [] := by
  have hvisible : isBlankText id = false := by
    obtain ⟨other, _, hother⟩ := List.mem_flatMap.1 (mem_externalsOf.1 hid).1
    exact (mem_distinctVisible.1 hother).2
  have hmem : id ∈ dependenciesOf module ↔ id ∈ module.dependencies := by
    rw [dependenciesOf, mem_distinctVisible, and_iff_left hvisible]
  have hnodup : (dependenciesOf module).Nodup := nodup_distinct _
  simp only [standsFor_eq_external_iff hid, List.contains_iff_mem]
  show (dependenciesOf module).filter (· == id) = _
  rw [List.filter_beq]
  by_cases hdeclared : id ∈ module.dependencies
  · rw [if_pos hdeclared, List.count_eq_one_of_mem hnodup (hmem.2 hdeclared)]
    rfl
  · rw [if_neg hdeclared, List.count_eq_zero_of_not_mem (mt hmem.1 hdeclared)]
    rfl

private theorem flatMap_ite_singleton {α β : Type} (p : α → Bool) (f : α → β) (l : List α) :
    (l.flatMap fun a => if p a then [f a] else []) = (l.filter p).map f := by
  induction l with
  | nil => rfl
  | cons a l ih =>
    rw [List.flatMap_cons, List.filter_cons, ih]
    split <;> rfl

/-- The edges to an external node come from the modules that list the dependency. -/
theorem dependantsOf_build (hid : id ∈ (build manifest).externals) :
    (build manifest).dependantsOf id =
      (manifest.modules.filter fun module => module.dependencies.contains id).map (·.id) := by
  rw [ModuleGraph.dependantsOf, nodePairs_build, List.filter_flatMap, List.map_flatMap]
  simp only [List.filter_map, List.map_map, Function.comp_def, filter_eq_of_mem_externals hid,
    DependencyNode.rawId]
  rw [← flatMap_ite_singleton]
  refine List.flatMap_congr fun module _ => ?_
  split <;> rfl

/-- An external node has an edge. -/
theorem dependantsOf_ne_nil (hid : id ∈ (build manifest).externals) :
    (build manifest).dependantsOf id ≠ [] := by
  obtain ⟨module, hmodule, hmem⟩ := List.mem_flatMap.1 (mem_externalsOf.1 hid).1
  have hdeclared : id ∈ module.dependencies := (mem_distinctVisible.1 hmem).1
  rw [dependantsOf_build hid]
  exact List.ne_nil_of_mem (List.mem_map_of_mem (List.mem_filter.2 ⟨hmodule, by simpa⟩))

/-- What the lint says of the external dependencies is what the edges show. -/
theorem externalFindings_build (manifest : Manifest) :
    externalFindings (build manifest) = (build manifest).externals.map fun id =>
      .externalDependency id ((build manifest).dependantsOf id) := by
  refine List.map_congr_left fun id hid => ?_
  rw [dependantsOf_build hid]
  rfl

theorem filter_isExternal_lint (manifest : Manifest) :
    (lint manifest).findings.filter Finding.isExternal = externalFindings (build manifest) := by
  have howner : ∀ f owner, Finding.owner? f = some owner → f.isExternal = false := by
    intro f owner hf
    cases f with
    | externalDependency id dependants => cases hf
    | _ => rfl
  have hmodules := filter_duplicateFindings_eq_nil (p := Finding.isExternal) fun _ _ _ => rfl
  have hshared := filter_sharedNodeFindings_eq_nil (p := Finding.isExternal) fun _ _ _ => rfl
  have hcycles := filter_cycles_eq_nil (p := Finding.isExternal) fun _ => rfl
  have hexternal : (externalFindings (build manifest)).filter Finding.isExternal =
      externalFindings (build manifest) := by
    refine List.filter_eq_self.2 fun f hf => ?_
    obtain ⟨id, dependants, rfl⟩ := exists_of_mem_externalFindings hf
    rfl
  rw [filter_lint_findings howner]
  simp only [graphFindings, List.filter_append, hmodules, hshared, hcycles, hexternal,
    List.nil_append, List.append_nil]

end

/-! ## Flows and state machines -/

section

variable {module : Module}

theorem node?_flowchart (flow : Flow) (rules : List Rule) :
    (readFlow (flowchart flow rules)).filterMap FlowLine.node? = flowNodes flow rules := by
  rw [filterMap_flowchart rfl, node?_execution, node?_code]
  rfl

/-- The placeholder is drawn for flows without steps only. -/
theorem placeholder_mem_flowchart_iff {flow : Flow} {rules : List Rule} :
    "no_steps" ∈ FlowLine.names (readFlow (flowchart flow rules)) ↔ flow.steps = [] := by
  have hordered : flow.orderedSteps = [] ↔ flow.steps = [] := by
    rw [← List.length_eq_zero_iff, ← List.length_eq_zero_iff, flow.orderedSteps_perm.length_eq]
  have hnodes : "no_steps" ∈ (flowNodes flow rules).map Prod.fst ↔
      "no_steps" ∈ (executionNodes rules flow.orderedSteps).map Prod.fst := by
    have htitle : "no_steps" ≠ flow.titleNode := (titleNode_ne (by decide)).symm
    have hcode : "no_steps" ∉ (codeNodes flow).map Prod.fst := by
      intro h
      exact absurd (eq_of_mem_codeNodes h) (by decide)
    rw [flowNodes, pathNodes, List.map_append, List.mem_append, or_iff_left hcode, List.map_cons,
      List.map_cons, List.mem_cons, List.mem_cons, or_iff_right htitle,
      or_iff_right (show "no_steps" ≠ "trigger" by decide)]
  rw [FlowLine.names, node?_flowchart, hnodes, ← hordered]
  by_cases hsteps : flow.orderedSteps = []
  · simp [executionNodes, hsteps]
  · rw [map_fst_executionNodes hsteps, iff_false_right hsteps]
    intro h
    obtain ⟨k, _, hk⟩ := List.mem_map.1 h
    have hhead := head?_stepNode k
    rw [hk] at hhead
    exact absurd hhead (by decide)

/-- The lint misses the steps of a flow where the flowchart shows the placeholder. -/
theorem noSteps_mem_flowFindings_iff {flow : Flow} {rules : List Rule} :
    .noSteps module.id flow.id ∈ flowFindings module flow ↔
      "no_steps" ∈ FlowLine.names (readFlow (flowchart flow rules)) := by
  rw [placeholder_mem_flowchart_iff]
  constructor
  · intro h
    cases foundInFlow_of_mem h with
    | noSteps hsteps => exact hsteps
  · intro hsteps
    rw [flowFindings, if_pos (List.isEmpty_iff.2 hsteps)]
    exact List.mem_append_left _ List.mem_cons_self

variable {machine : StateMachine}

/-- The findings about the start of a machine name the state in which it starts. -/
theorem exists_of_mem_initialFindings {f : Finding} (h : f ∈ initialFindings module machine) :
    ∃ state, machine.startState? = some state ∧
      ((∃ others, f = .severalInitial module.id machine.id state.id others) ∨
        f = .noInitial module.id machine.id state.id) := by
  rcases initialFindings_cases module machine with ⟨first, other, others, hflagged, heq⟩ |
    ⟨first, hflagged, hfirst, heq⟩ | heq <;> rw [heq] at h
  · refine ⟨first, ?_, .inl ⟨_, List.mem_singleton.1 h⟩⟩
    rw [StateMachine.startState?, ← List.head?_filter, hflagged]
    rfl
  · refine ⟨first, ?_, .inr (List.mem_singleton.1 h)⟩
    rw [StateMachine.startState?, ← List.head?_filter, hflagged, hfirst]
    rfl
  · cases h

theorem mem_stateMachineFindings {f : Finding} :
    f ∈ stateMachineFindings module machine ↔
      (machine.states = [] ∧ f = .noStates module.id machine.id) ∨
      (∃ id ∈ repeated [] (machine.states.map (·.id)),
        f = .duplicateId .state (.stateMachine module.id machine.id) id) ∨
      f ∈ initialFindings module machine ∨
      ∃ t ∈ machine.transitions, ∃ id ∈ t.ends, id ∉ machine.states.map (·.id) ∧
        f = .unknownState module.id machine.id t.source t.target id := by
  have hstates : f ∈ (if machine.states.isEmpty then [.noStates module.id machine.id] else []) ↔
      machine.states = [] ∧ f = .noStates module.id machine.id := by
    rw [← List.isEmpty_iff]
    split <;> simp_all
  have hunknown : ∀ id, (machine.state? id).isNone = true ↔ id ∉ machine.states.map (·.id) := by
    intro id
    rw [Option.isNone_iff_eq_none, StateMachine.state?, List.find?_eq_none]
    simp
  have htransition : ∀ t, f ∈ transitionFindings module machine t ↔
      ∃ id ∈ t.ends, id ∉ machine.states.map (·.id) ∧
        f = .unknownState module.id machine.id t.source t.target id := by
    intro t
    simp only [transitionFindings, List.mem_map, List.mem_filter, hunknown, and_assoc,
      Transition.ends, @eq_comm _ f]
  simp only [stateMachineFindings, List.mem_append, hstates, mem_duplicateFindings,
    List.mem_flatMap, htransition, or_assoc]

/-- The lint misses the states of a machine where the diagram shows the placeholder. -/
theorem noStates_mem_stateMachineFindings_iff :
    .noStates module.id machine.id ∈ stateMachineFindings module machine ↔
      placeholderLine ∈ splitLines (stateDiagram machine) := by
  rw [placeholder_mem_stateDiagram_iff, mem_stateMachineFindings]
  constructor
  · rintro (h | ⟨id, _, h⟩ | h | ⟨t, _, id, _, _, h⟩)
    · exact h.1
    · cases h
    · obtain ⟨state, _, ⟨others, h⟩ | h⟩ := exists_of_mem_initialFindings h <;> cases h
    · cases h
  · exact fun h => .inl ⟨h, rfl⟩

/-- The states that the lint does not know get their alias at a transition. -/
theorem mem_unknownStates_iff {id : String} :
    id ∈ (stateMachineFindings module machine).filterMap Finding.unknownState? ↔
      machine.MintsInTransitions id := by
  rw [mintsInTransitions_iff, List.mem_filterMap]
  constructor
  · rintro ⟨f, hf, hid⟩
    rcases mem_stateMachineFindings.1 hf with
      ⟨_, rfl⟩ | ⟨_, _, rfl⟩ | hf | ⟨t, ht, _, hend, hnew, rfl⟩
    · cases hid
    · cases hid
    · obtain ⟨state, _, ⟨others, rfl⟩ | rfl⟩ := exists_of_mem_initialFindings hf <;> cases hid
    · obtain rfl : _ = id := Option.some.inj hid
      exact ⟨hnew, t, ht, hend⟩
  · rintro ⟨hnew, t, ht, hend⟩
    exact ⟨_, mem_stateMachineFindings.2 (.inr (.inr (.inr ⟨t, ht, id, hend, hnew, rfl⟩))), rfl⟩

/-- The state that the lint names as the start is the one in which the machine starts. -/
theorem startState?_of_start? {id : String}
    (h : id ∈ (stateMachineFindings module machine).filterMap Finding.start?) :
    ∃ state, machine.startState? = some state ∧ state.id = id := by
  obtain ⟨f, hf, hid⟩ := List.mem_filterMap.1 h
  rcases mem_stateMachineFindings.1 hf with ⟨_, rfl⟩ | ⟨_, _, rfl⟩ | hf | ⟨t, _, _, _, _, rfl⟩
  · cases hid
  · cases hid
  · obtain ⟨state, hstart, ⟨others, rfl⟩ | rfl⟩ := exists_of_mem_initialFindings hf
    · exact ⟨state, hstart, Option.some.inj hid⟩
    · exact ⟨state, hstart, Option.some.inj hid⟩
  · cases hid

end

/-! ## The diagrams as the lint describes them -/

/-- The diagrams of a manifest look as the lint says.

The notes about external dependencies are one for each external node, in order, with the modules
that have an edge to it.  What the report says of the flows and of the state machines is what it
says of each of them, one after the other.  For each machine, the states that it calls unknown are
those that get their alias while the transitions are drawn, and the state that it names as the
start is the only one that gets the arrow from the start.  A flow without steps and a machine
without states are reported where the diagram has a placeholder. -/
structure LintDescribes (manifest : Manifest) : Prop where
  externals : (lint manifest).findings.filter Finding.isExternal =
    (build manifest).externals.map fun id =>
      .externalDependency id ((build manifest).dependantsOf id)
  dependants : ∀ id ∈ (build manifest).externals, (build manifest).dependantsOf id ≠ []
  flows : (lint manifest).findings.filter (·.flow?.isSome) =
    manifest.flows.flatMap fun (module, flow) => flowFindings module flow
  machines : (lint manifest).findings.filter (·.machine?.isSome) =
    manifest.machines.flatMap fun (module, machine) => stateMachineFindings module machine
  unknownStates : ∀ p ∈ manifest.machines, ∀ id,
    id ∈ (stateMachineFindings p.1 p.2).filterMap Finding.unknownState? ↔ p.2.MintsInTransitions id
  drawing : ∀ p ∈ manifest.machines,
    StateDraft.ofMachine p.2 = ⟨p.2.diagram.statements, p.2.aliases⟩
  start : ∀ p ∈ manifest.machines,
    ∀ id ∈ (stateMachineFindings p.1 p.2).filterMap Finding.start?,
      startArrows (stateDiagram p.2) = [arrowLine "[*]" (p.2.aliases.nameOf id)] ∧
      id ∈ p.2.states.map (·.id) ∧
      ∀ other ∈ p.2.mentions, p.2.aliases.nameOf other = p.2.aliases.nameOf id → other = id
  noSteps : ∀ p ∈ manifest.flows, .noSteps p.1.id p.2.id ∈ flowFindings p.1 p.2 ↔
    "no_steps" ∈ FlowLine.names (readFlow (flowchart p.2 p.1.rules))
  noStates : ∀ p ∈ manifest.machines, .noStates p.1.id p.2.id ∈ stateMachineFindings p.1 p.2 ↔
    placeholderLine ∈ splitLines (stateDiagram p.2)

/-- What the lint says of the diagrams of a manifest holds of them, also where identifiers repeat
and where the manifest mentions what it does not declare. -/
theorem lint_describes_diagrams (manifest : Manifest) : LintDescribes manifest where
  externals := by rw [filter_isExternal_lint, externalFindings_build]
  dependants _ hid := dependantsOf_ne_nil hid
  flows := filter_flow?_lint manifest
  machines := filter_machine?_lint manifest
  unknownStates _ _ _ := mem_unknownStates_iff
  drawing p _ := StateDraft.ofMachine_eq p.2
  start p _ id hid := by
    obtain ⟨state, hstart, rfl⟩ := startState?_of_start? hid
    have hdeclared : state.id ∈ p.2.states.map (·.id) :=
      List.mem_map_of_mem (startState?_mem hstart)
    exact ⟨startArrows_stateDiagram hstart, hdeclared,
      fun other hother hname => (nameOf_aliases_eq_iff hother).1 hname⟩
  noSteps _ _ := noSteps_mem_flowFindings_iff
  noStates _ _ := noStates_mem_stateMachineFindings_iff

end ManifestAtlas
