import Mathlib
import ManifestAtlas.Proofs.FindingTexts
import ManifestAtlas.Proofs.LintFindings

/-!
# The parts of a report

The lint puts a report together from the findings of its checks.  `SplitsInto`
says that a list of findings is made of parts, and that no two parts come from
one check.  Each level of the lint is such a list: what is found in a flow, in
a state machine, in a module, and in a manifest.

So the check that a finding comes from tells the part that it is in
(`SplitsInto.mem_iff`), and a list has no repeats if its parts have none
(`SplitsInto.nodup_iff`).
-/

namespace ManifestAtlas

open ModuleGraph (build)

/-! ## Parts -/

/-- Findings are made of parts, and each part comes from checks of its own. -/
structure SplitsInto (findings : List Finding) (parts : List (List Check × List Finding)) :
    Prop where
  perm : findings.Perm (parts.flatMap Prod.snd)
  check_mem : ∀ part ∈ parts, ∀ f ∈ part.2, f.check ∈ part.1
  apart : (parts.flatMap Prod.fst).Nodup

namespace SplitsInto

variable {findings : List Finding} {parts : List (List Check × List Finding)}

/-- The check of a finding tells the part that it is in. -/
theorem mem_iff (h : SplitsInto findings parts) {f : Finding} {i : Nat}
    {part : List Check × List Finding} (hpart : parts[i]? = some part)
    (hcheck : f.check ∈ part.1) : f ∈ findings ↔ f ∈ part.2 := by
  have hmem : part ∈ parts := List.mem_of_getElem? hpart
  rw [h.perm.mem_iff, List.mem_flatMap]
  constructor
  · rintro ⟨other, hother, hf⟩
    by_contra hnot
    have hne : other ≠ part := fun heq => hnot (heq ▸ hf)
    have hsymm : Std.Symm (Function.onFun List.Disjoint fun part : List Check × List Finding =>
        part.1) := ⟨fun _ _ hdisjoint => List.Disjoint.symm hdisjoint⟩
    exact (List.nodup_flatMap.1 h.apart).2.forall hother hmem hne
      (h.check_mem other hother f hf) hcheck
  · exact fun hf => ⟨part, hmem, hf⟩

theorem nodup_iff (h : SplitsInto findings parts) :
    findings.Nodup ↔ ∀ part ∈ parts, part.2.Nodup := by
  rw [h.perm.nodup_iff, List.nodup_flatMap]
  refine and_iff_left ((List.nodup_flatMap.1 h.apart).2.imp_of_mem ?_)
  intro part other hpart hother hdisjoint
  refine List.disjoint_left.2 fun f hf hf' => ?_
  exact hdisjoint (h.check_mem part hpart f hf) (h.check_mem other hother f hf')

theorem check_mem_checks (h : SplitsInto findings parts) {f : Finding} (hf : f ∈ findings) :
    f.check ∈ parts.flatMap Prod.fst := by
  obtain ⟨part, hpart, hf⟩ := List.mem_flatMap.1 (h.perm.mem_iff.1 hf)
  exact List.mem_flatMap.2 ⟨part, hpart, h.check_mem part hpart f hf⟩

end SplitsInto

/-! ## Single checks -/

section

variable {f : Finding}

theorem check_of_mem_duplicateFindings {kind : IdKind} {scope : Scope} {ids : List String}
    (h : f ∈ duplicateFindings kind scope ids) : f.check = .duplicateId kind := by
  obtain ⟨id, _, rfl⟩ := mem_duplicateFindings.1 h
  rfl

theorem check_of_mem_sharedNodeFindings {kind : NodeKind} {tag : String} {ids : List String}
    (h : f ∈ sharedNodeFindings kind tag ids) : f.check = .sharedNode kind := by
  obtain ⟨node, sharing, rfl⟩ := exists_of_mem_sharedNodeFindings h
  rfl

end

/-! ## Flows -/

section

variable {module : Module} {flow : Flow} {f : Finding}

/-- The numbers that have come before, counting what came before the list. -/
def comingAgain (before : List Int64) : List Int64 → List Int64
  | [] => []
  | order :: orders =>
    (if before.contains order then [order] else []) ++ comingAgain (order :: before) orders

/-- The findings about order numbers and those about rules do not depend on each other. -/
theorem stepFindings_perm (module : Module) (flow : Flow) (before : List Int64)
    (steps : List Step) : (stepFindings module flow before steps).Perm
      ((comingAgain before (steps.map Step.order)).map (.sharedOrder module.id flow.id) ++
        steps.flatMap (stepRuleFindings module flow)) := by
  induction steps generalizing before with
  | nil => exact List.Perm.refl []
  | cons step steps ih =>
    have hhead : (if before.contains step.order then [step.order] else []).map
        (Finding.sharedOrder module.id flow.id) =
          if before.contains step.order then [.sharedOrder module.id flow.id step.order]
          else [] := by
      split <;> rfl
    rw [stepFindings, List.map_cons, comingAgain, List.map_append, hhead, List.flatMap_cons,
      List.append_assoc, List.append_assoc]
    refine List.Perm.append_left _ ((ih (step.order :: before)).append_left _ |>.trans ?_)
    rw [← List.append_assoc, ← List.append_assoc]
    exact List.perm_append_comm.append_right _

/-- The findings about a flow by the checks that they come from. -/
def flowParts (module : Module) (flow : Flow) : List (List Check × List Finding) :=
  [([.noSteps], if flow.steps.isEmpty then [.noSteps module.id flow.id] else []),
    ([.sharedOrder],
      (comingAgain [] (flow.orderedSteps.map Step.order)).map (.sharedOrder module.id flow.id)),
    ([.unknownRule], flow.orderedSteps.flatMap (stepRuleFindings module flow))]

/-- The checks of a flow. -/
def flowChecks : List Check :=
  [.noSteps, .sharedOrder, .unknownRule]

theorem splitsInto_flowParts (module : Module) (flow : Flow) :
    SplitsInto (flowFindings module flow) (flowParts module flow) where
  perm := by
    simp only [flowParts, List.flatMap_cons, List.flatMap_nil, List.append_nil, flowFindings]
    exact (stepFindings_perm module flow [] flow.orderedSteps).append_left _
  check_mem := by
    simp only [flowParts, List.forall_mem_cons]
    refine ⟨?_, ?_, ?_, List.forall_mem_nil _⟩
    · intro f hf
      split at hf
      · exact List.mem_map_of_mem (f := Finding.check) hf
      · cases hf
    · intro f hf
      obtain ⟨order, _, rfl⟩ := List.mem_map.1 hf
      exact List.mem_singleton_self _
    · intro f hf
      obtain ⟨step, _, hf⟩ := List.mem_flatMap.1 hf
      obtain ⟨id, _, rfl⟩ := List.mem_map.1 hf
      exact List.mem_singleton_self _
  apart := by
    show flowChecks.Nodup
    decide

theorem check_of_mem_flowFindings (h : f ∈ flowFindings module flow) : f.check ∈ flowChecks :=
  (splitsInto_flowParts module flow).check_mem_checks h

/-- What the lint says of rules in a flow is what it says of them at its steps. -/
theorem mem_flowFindings_iff_of_unknownRule (hcheck : f.check = .unknownRule) :
    f ∈ flowFindings module flow ↔ ∃ step ∈ flow.steps, f ∈ stepRuleFindings module flow step := by
  rw [(splitsInto_flowParts module flow).mem_iff (i := 2) rfl (List.mem_singleton.2 hcheck)]
  simp only [List.mem_flatMap, flow.orderedSteps_perm.mem_iff]

end

/-! ## State machines -/

section

variable {module : Module} {machine : StateMachine} {f : Finding}

/-- The findings about a state machine by the checks that they come from. -/
def machineParts (module : Module) (machine : StateMachine) : List (List Check × List Finding) :=
  [([.noStates], if machine.states.isEmpty then [.noStates module.id machine.id] else []),
    ([.duplicateId .state],
      duplicateFindings .state (.stateMachine module.id machine.id) (machine.states.map (·.id))),
    ([.severalInitial, .noInitial], initialFindings module machine),
    ([.unknownState], machine.transitions.flatMap (transitionFindings module machine))]

/-- The checks of a state machine. -/
def machineChecks : List Check :=
  [.noStates, .duplicateId .state, .severalInitial, .noInitial, .unknownState]

theorem splitsInto_machineParts (module : Module) (machine : StateMachine) :
    SplitsInto (stateMachineFindings module machine) (machineParts module machine) where
  perm := by
    simp only [machineParts, stateMachineFindings, List.flatMap_cons, List.flatMap_nil,
      List.append_nil, List.append_assoc, List.Perm.refl]
  check_mem := by
    simp only [machineParts, List.forall_mem_cons]
    refine ⟨?_, ?_, ?_, ?_, List.forall_mem_nil _⟩
    · intro f hf
      split at hf
      · exact List.mem_map_of_mem (f := Finding.check) hf
      · cases hf
    · exact fun f hf => List.mem_singleton.2 (check_of_mem_duplicateFindings hf)
    · intro f hf
      rcases initialFindings_cases module machine with ⟨first, other, others, _, heq⟩ |
        ⟨first, _, _, heq⟩ | heq <;> rw [heq] at hf
      · rw [List.mem_singleton.1 hf]
        exact List.mem_cons_self
      · rw [List.mem_singleton.1 hf]
        exact List.mem_cons_of_mem _ List.mem_cons_self
      · cases hf
    · intro f hf
      obtain ⟨t, _, hf⟩ := List.mem_flatMap.1 hf
      obtain ⟨id, _, rfl⟩ := List.mem_map.1 hf
      exact List.mem_singleton_self _
  apart := by
    show machineChecks.Nodup
    decide

theorem check_of_mem_stateMachineFindings (h : f ∈ stateMachineFindings module machine) :
    f.check ∈ machineChecks :=
  (splitsInto_machineParts module machine).check_mem_checks h

end

/-! ## Modules and manifests -/

section

variable {manifest : Manifest} {module : Module} {f : Finding}

/-- The findings about a module on its own by the checks that they come from. -/
def moduleParts (module : Module) : List (List Check × List Finding) :=
  [([.duplicateId .flow], duplicateFindings .flow (.module module.id) (module.flows.map (·.id))),
    ([.duplicateId .rule], duplicateFindings .rule (.module module.id) (module.rules.map (·.id))),
    ([.duplicateId .stateMachine],
      duplicateFindings .stateMachine (.module module.id) (module.stateMachines.map (·.id))),
    (flowChecks, module.flows.flatMap (flowFindings module)),
    (machineChecks, module.stateMachines.flatMap (stateMachineFindings module))]

/-- The checks of a module on its own. -/
def moduleChecks : List Check :=
  [.duplicateId .flow, .duplicateId .rule, .duplicateId .stateMachine] ++ flowChecks ++
    machineChecks

theorem splitsInto_moduleParts (module : Module) :
    SplitsInto (moduleFindings module) (moduleParts module) where
  perm := by
    simp only [moduleParts, moduleFindings, List.flatMap_cons, List.flatMap_nil, List.append_nil,
      List.append_assoc, List.Perm.refl]
  check_mem := by
    simp only [moduleParts, List.forall_mem_cons]
    refine ⟨?_, ?_, ?_, ?_, ?_, List.forall_mem_nil _⟩
    · exact fun f hf => List.mem_singleton.2 (check_of_mem_duplicateFindings hf)
    · exact fun f hf => List.mem_singleton.2 (check_of_mem_duplicateFindings hf)
    · exact fun f hf => List.mem_singleton.2 (check_of_mem_duplicateFindings hf)
    · intro f hf
      obtain ⟨flow, _, hf⟩ := List.mem_flatMap.1 hf
      exact check_of_mem_flowFindings hf
    · intro f hf
      obtain ⟨machine, _, hf⟩ := List.mem_flatMap.1 hf
      exact check_of_mem_stateMachineFindings hf
  apart := by
    show moduleChecks.Nodup
    decide

theorem check_of_mem_moduleFindings (h : f ∈ moduleFindings module) : f.check ∈ moduleChecks :=
  (splitsInto_moduleParts module).check_mem_checks h

theorem exists_machine_of_mem_moduleFindings (hf : f ∈ moduleFindings module)
    (hcheck : f.check ∈ machineChecks) :
    ∃ machine ∈ module.stateMachines, f ∈ stateMachineFindings module machine :=
  List.mem_flatMap.1 (((splitsInto_moduleParts module).mem_iff (i := 4) rfl hcheck).1 hf)

/-- The findings about a manifest by the checks that they come from. -/
def manifestParts (manifest : Manifest) : List (List Check × List Finding) :=
  [([.duplicateId .module],
      duplicateFindings .module .manifest (manifest.modules.map (·.id))),
    ([.sharedNode .modules],
      sharedNodeFindings .modules moduleTag (manifest.modules.map (·.id))),
    ([.sharedNode .dependencies],
      sharedNodeFindings .dependencies externalTag (build manifest).externals),
    ([.externalDependency], externalFindings (build manifest)),
    ([.dependencyCycle], (build manifest).cycles.map .dependencyCycle),
    (moduleChecks, manifest.modules.flatMap moduleFindings)]

theorem splitsInto_manifestParts (manifest : Manifest) :
    SplitsInto (lint manifest).findings (manifestParts manifest) where
  perm := by
    simp only [manifestParts, lint, List.flatMap_cons, List.flatMap_nil, List.append_nil,
      List.append_assoc, List.Perm.refl]
  check_mem := by
    simp only [manifestParts, List.forall_mem_cons]
    refine ⟨?_, ?_, ?_, ?_, ?_, ?_, List.forall_mem_nil _⟩
    · exact fun f hf => List.mem_singleton.2 (check_of_mem_duplicateFindings hf)
    · exact fun f hf => List.mem_singleton.2 (check_of_mem_sharedNodeFindings hf)
    · exact fun f hf => List.mem_singleton.2 (check_of_mem_sharedNodeFindings hf)
    · intro f hf
      obtain ⟨id, dependants, rfl⟩ := exists_of_mem_externalFindings hf
      exact List.mem_singleton_self _
    · intro f hf
      obtain ⟨ids, rfl⟩ := exists_of_mem_cycles hf
      exact List.mem_singleton_self _
    · intro f hf
      obtain ⟨module, _, hf⟩ := List.mem_flatMap.1 hf
      exact check_of_mem_moduleFindings hf
  apart := by
    show (Check.duplicateId .module :: .sharedNode .modules :: .sharedNode .dependencies ::
      .externalDependency :: .dependencyCycle :: moduleChecks).Nodup
    decide

theorem exists_module_of_mem_lint (hf : f ∈ (lint manifest).findings)
    (hcheck : f.check ∈ moduleChecks) : ∃ module ∈ manifest.modules, f ∈ moduleFindings module :=
  List.mem_flatMap.1 (((splitsInto_manifestParts manifest).mem_iff (i := 5) rfl hcheck).1 hf)

end

end ManifestAtlas
