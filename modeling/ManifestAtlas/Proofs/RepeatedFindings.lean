import Mathlib
import ManifestAtlas.Proofs.DependencyCycles
import ManifestAtlas.Proofs.LintedDiagrams
import ManifestAtlas.Proofs.ReportParts
import ManifestAtlas.Proofs.SelectedDiagrams
import ManifestAtlas.Proofs.SharedNodes

/-!
# Findings that are reported twice

A report is a list, and nothing in it keeps a finding from being listed twice.
This module says when that happens in a manifest whose names differ where they
should.

* Parts.  Different checks give different findings, and so do different
  modules, flows, machines and steps, so that only a single loop of the lint
  can list a finding twice (`SplitsInto.nodup_iff`, `nodup_flatMap_iff_of_mark`).
* Loops that cannot.  The checks of identifiers, of nodes and of dependencies
  list nothing twice.
* Loops that can.  A flow repeats itself when three steps have one order number
  or a step names an unknown rule twice (`nodup_flowFindings_iff`); a state
  machine does when two transitions with an undeclared end have the same ends,
  or an undeclared state leads to itself (`nodup_stateMachineFindings_iff`).
* The whole report (`nodup_findings_iff`).
-/

namespace ManifestAtlas

open ModuleGraph (build)

/-! ## Lists made of parts -/

/-- Parts whose elements bear the marks of different names have nothing in common. -/
theorem nodup_flatMap_iff_of_mark {α β κ : Type} {xs : List α} {f : α → List β}
    {name : α → String} {mark : String → κ} (hmark : Function.Injective mark) (markOf : β → κ)
    (hmem : ∀ x ∈ xs, ∀ y ∈ f x, markOf y = mark (name x)) (hnames : (xs.map name).Nodup) :
    (xs.flatMap f).Nodup ↔ ∀ x ∈ xs, (f x).Nodup := by
  rw [List.nodup_flatMap]
  refine and_iff_left ((List.pairwise_map.1 hnames).imp_of_mem ?_)
  intro x y hx hy hne
  refine List.disjoint_left.2 fun z hzx hzy => hne (hmark ?_)
  rw [← hmem x hx z hzx, hmem y hy z hzy]

theorem nodup_of_length_le_one {α : Type} {xs : List α} (h : xs.length ≤ 1) : xs.Nodup := by
  match xs, h with
  | [], _ => exact List.nodup_nil
  | [x], _ => exact List.nodup_singleton x

theorem nodup_ite_singleton {α : Type} (p : Prop) [Decidable p] (x : α) :
    (if p then [x] else []).Nodup := by
  split
  · exact List.nodup_singleton x
  · exact List.nodup_nil

/-! ## Identifiers, nodes and dependencies -/

theorem nodup_duplicateFindings (kind : IdKind) (scope : Scope) (ids : List String) :
    (duplicateFindings kind scope ids).Nodup :=
  (nodup_repeated [] ids).map fun _ _ h => (Finding.duplicateId.inj h).2.2

theorem nodup_sharedNodeFindings (kind : NodeKind) (tag : String) (ids : List String) :
    (sharedNodeFindings kind tag ids).Nodup := by
  refine (nodup_distinct _).filterMap fun node other f hf hf' => ?_
  simp only [Option.mem_def, Option.ite_none_right_eq_some, Option.some.injEq] at hf hf'
  exact (Finding.sharedNode.inj (hf.2.trans hf'.2.symm)).2.1

theorem nodup_externalFindings (manifest : Manifest) : (externalFindings (build manifest)).Nodup :=
  (nodup_externals manifest).map fun _ _ h => (Finding.externalDependency.inj h).1

theorem nodup_cycleFindings (manifest : Manifest) :
    ((build manifest).cycles.map Finding.dependencyCycle).Nodup := by
  refine List.Nodup.map (fun _ _ h => Finding.dependencyCycle.inj h) ?_
  exact (isListingOf_cycles manifest).groups_ascending.imp fun h => h.ne

/-! ## Flows -/

section

variable {module : Module} {flow : Flow}

theorem count_comingAgain (before orders : List Int64) (order : Int64) :
    (comingAgain before orders).count order =
      if order ∈ before then orders.count order else orders.count order - 1 := by
  induction orders generalizing before with
  | nil => simp [comingAgain]
  | cons next orders ih =>
    rw [comingAgain, List.count_append, ih]
    by_cases hnext : next = order
    · subst hnext
      by_cases hbefore : next ∈ before
      · simp [hbefore, Nat.add_comm]
      · simp [hbefore]
    · have hne : order ≠ next := Ne.symm hnext
      by_cases hbefore : next ∈ before <;> simp [hbefore, hnext, hne]

/-- A number comes again once if it occurs twice. -/
theorem nodup_comingAgain_iff {orders : List Int64} :
    (comingAgain [] orders).Nodup ↔ ∀ order, orders.count order ≤ 2 := by
  rw [List.nodup_iff_count_le_one]
  refine forall_congr' fun order => ?_
  rw [count_comingAgain, if_neg List.not_mem_nil]
  omega

/-- The step that a finding is about. -/
def Finding.step? : Finding → Option String
  | .unknownRule _ _ step _ => some step
  | _ => none

/-- No finding about a flow is listed twice: no three steps have one order number, and no step names
an unknown rule twice. -/
structure Flow.ReportsOnce (module : Module) (flow : Flow) : Prop where
  orders : ∀ order, (flow.steps.map Step.order).count order ≤ 2
  rules : ∀ step ∈ flow.steps, (step.rules.filter fun id => (module.rule? id).isNone).Nodup

theorem nodup_flowFindings_iff (hsteps : (flow.steps.map Step.name).Nodup) :
    (flowFindings module flow).Nodup ↔ flow.ReportsOnce module := by
  have horders : ((comingAgain [] (flow.orderedSteps.map Step.order)).map
      (Finding.sharedOrder module.id flow.id)).Nodup ↔
        ∀ order, (flow.steps.map Step.order).count order ≤ 2 := by
    rw [List.nodup_map_iff fun _ _ h => (Finding.sharedOrder.inj h).2.2, nodup_comingAgain_iff]
    simp only [(flow.orderedSteps_perm.map Step.order).count_eq]
  have hrules : (flow.orderedSteps.flatMap (stepRuleFindings module flow)).Nodup ↔
      ∀ step ∈ flow.steps, (step.rules.filter fun id => (module.rule? id).isNone).Nodup := by
    rw [(flow.orderedSteps_perm.flatMap_right _).nodup_iff,
      nodup_flatMap_iff_of_mark (Option.some_injective _) Finding.step? ?_ hsteps]
    · refine forall₂_congr fun step _ => ?_
      exact List.nodup_map_iff fun _ _ h => (Finding.unknownRule.inj h).2.2.2
    · intro step _ f hf
      obtain ⟨id, _, rfl⟩ := List.mem_map.1 hf
      rfl
  rw [(splitsInto_flowParts module flow).nodup_iff]
  simp only [flowParts, List.forall_mem_cons, List.not_mem_nil, false_implies, implies_true,
    and_true, nodup_ite_singleton, true_and, horders, hrules]
  exact ⟨fun h => ⟨h.1, h.2⟩, fun h => ⟨h.orders, h.rules⟩⟩

end

/-! ## State machines -/

section

variable {module : Module} {machine : StateMachine}

theorem length_initialFindings (module : Module) (machine : StateMachine) :
    (initialFindings module machine).length ≤ 1 := by
  rcases initialFindings_cases module machine with ⟨first, other, others, _, heq⟩ |
    ⟨first, _, _, heq⟩ | heq <;> rw [heq]
  · exact le_rfl
  · exact le_rfl
  · exact Nat.zero_le 1

/-- Both ends of a transition are declared. -/
def StateMachine.Declares (machine : StateMachine) (t : Transition) : Prop :=
  (machine.state? t.source).isSome ∧ (machine.state? t.target).isSome

theorem transitionFindings_eq_nil_iff {t : Transition} :
    transitionFindings module machine t = [] ↔ machine.Declares t := by
  simp [transitionFindings, StateMachine.Declares, Option.isSome_iff_ne_none]

/-- The two ends of a transition are reported apart, also where they are one state. -/
theorem nodup_transitionFindings_iff {t : Transition} :
    (transitionFindings module machine t).Nodup ↔
      (t.source = t.target → (machine.state? t.source).isSome) := by
  rw [transitionFindings, List.nodup_map_iff fun _ _ h => (Finding.unknownState.inj h).2.2.2.2]
  by_cases hloop : t.source = t.target
  · rw [← hloop]
    cases hstate : machine.state? t.source <;> simp [hstate]
  · have hends : [t.source, t.target].Nodup := by simpa using hloop
    exact iff_of_true (hends.filter _) fun h => absurd h hloop

/-- The findings about two transitions have something in common if the transitions have the same
ends, and findings. -/
theorem disjoint_transitionFindings_iff {t u : Transition} :
    (transitionFindings module machine t).Disjoint (transitionFindings module machine u) ↔
      (t.source = u.source → t.target = u.target → machine.Declares t) := by
  constructor
  · intro h hsource htarget
    have hsame : transitionFindings module machine t = transitionFindings module machine u := by
      rw [transitionFindings, transitionFindings, hsource, htarget]
    rw [← hsame] at h
    exact transitionFindings_eq_nil_iff.1 (List.eq_nil_iff_forall_not_mem.2 fun f hf => h hf hf)
  · intro h
    refine List.disjoint_left.2 fun f ht hu => ?_
    obtain ⟨id, _, rfl⟩ := List.mem_map.1 ht
    obtain ⟨other, _, heq⟩ := List.mem_map.1 hu
    obtain ⟨_, _, hsource, htarget, _⟩ := Finding.unknownState.inj heq
    rw [transitionFindings_eq_nil_iff.2 (h hsource.symm htarget.symm)] at ht
    cases ht

/-- No finding about a state machine is listed twice: no two transitions with an undeclared end have
the same ends, and no undeclared state leads to itself. -/
structure StateMachine.ReportsOnce (machine : StateMachine) : Prop where
  ends : machine.transitions.Pairwise fun t u =>
    t.source = u.source → t.target = u.target → machine.Declares t
  loops : ∀ t ∈ machine.transitions, t.source = t.target → (machine.state? t.source).isSome

theorem nodup_stateMachineFindings_iff :
    (stateMachineFindings module machine).Nodup ↔ machine.ReportsOnce := by
  have hinitial : (initialFindings module machine).Nodup :=
    nodup_of_length_le_one (length_initialFindings module machine)
  have htransitions : (machine.transitions.flatMap (transitionFindings module machine)).Nodup ↔
      (∀ t ∈ machine.transitions, t.source = t.target → (machine.state? t.source).isSome) ∧
        machine.transitions.Pairwise fun t u =>
          t.source = u.source → t.target = u.target → machine.Declares t := by
    rw [List.nodup_flatMap]
    exact and_congr (forall₂_congr fun _ _ => nodup_transitionFindings_iff)
      (List.Pairwise.iff fun _ _ => disjoint_transitionFindings_iff)
  rw [(splitsInto_machineParts module machine).nodup_iff]
  simp only [machineParts, List.forall_mem_cons, List.not_mem_nil, false_implies, implies_true,
    and_true, nodup_ite_singleton, true_and, nodup_duplicateFindings, hinitial, htransitions]
  exact ⟨fun h => ⟨h.2, h.1⟩, fun h => ⟨h.loops, h.ends⟩⟩

end

/-! ## The whole report -/

section

variable {manifest : Manifest} {module : Module}

/-- The names in a manifest differ where they should: those of the modules, those of the flows and
of the state machines of a module, and those of the steps of a flow. -/
structure Manifest.HasUniqueNames (manifest : Manifest) : Prop extends manifest.HasUniqueIds where
  steps : ∀ module ∈ manifest.modules, ∀ flow ∈ module.flows, (flow.steps.map Step.name).Nodup

/-- No flow and no state machine has a finding that is listed twice. -/
structure Manifest.ReportsOnce (manifest : Manifest) : Prop where
  flows : ∀ module ∈ manifest.modules, ∀ flow ∈ module.flows, flow.ReportsOnce module
  machines : ∀ module ∈ manifest.modules, ∀ machine ∈ module.stateMachines, machine.ReportsOnce

theorem nodup_moduleFindings_iff (h : manifest.HasUniqueNames)
    (hmodule : module ∈ manifest.modules) :
    (moduleFindings module).Nodup ↔
      (∀ flow ∈ module.flows, flow.ReportsOnce module) ∧
        ∀ machine ∈ module.stateMachines, machine.ReportsOnce := by
  have hmark : Function.Injective fun id : String => some (module.id, id) :=
    fun _ _ heq => (Prod.mk.inj (Option.some.inj heq)).2
  have hflows : (module.flows.flatMap (flowFindings module)).Nodup ↔
      ∀ flow ∈ module.flows, flow.ReportsOnce module := by
    rw [nodup_flatMap_iff_of_mark hmark Finding.flow?
      (fun flow _ f hf => (parts_of_mem_flowFindings hf).1) (h.flows module hmodule)]
    exact forall₂_congr fun flow hflow => nodup_flowFindings_iff (h.steps module hmodule flow hflow)
  have hmachines : (module.stateMachines.flatMap (stateMachineFindings module)).Nodup ↔
      ∀ machine ∈ module.stateMachines, machine.ReportsOnce := by
    rw [nodup_flatMap_iff_of_mark hmark Finding.machine?
      (fun machine _ f hf => (parts_of_mem_stateMachineFindings hf).2) (h.machines module hmodule)]
    exact forall₂_congr fun machine _ => nodup_stateMachineFindings_iff
  rw [(splitsInto_moduleParts module).nodup_iff]
  simp only [moduleParts, List.forall_mem_cons, List.not_mem_nil, false_implies, implies_true,
    and_true, true_and, nodup_duplicateFindings, hflows, hmachines]

/-- A report lists a finding twice only where a flow or a state machine does. -/
theorem nodup_findings_iff (h : manifest.HasUniqueNames) :
    (lint manifest).findings.Nodup ↔ manifest.ReportsOnce := by
  have hmodules : (manifest.modules.flatMap moduleFindings).Nodup ↔
      ∀ module ∈ manifest.modules, (moduleFindings module).Nodup :=
    nodup_flatMap_iff_of_mark (Option.some_injective _) Finding.owner?
      (fun module _ f hf => owner?_of_mem_moduleFindings hf) h.modules
  rw [(splitsInto_manifestParts manifest).nodup_iff]
  simp only [manifestParts, List.forall_mem_cons, List.not_mem_nil, false_implies, implies_true,
    and_true, true_and, nodup_duplicateFindings, nodup_sharedNodeFindings, nodup_externalFindings,
    nodup_cycleFindings, hmodules]
  constructor
  · intro hall
    exact ⟨fun module hm => ((nodup_moduleFindings_iff h hm).1 (hall module hm)).1,
      fun module hm => ((nodup_moduleFindings_iff h hm).1 (hall module hm)).2⟩
  · intro hall module hm
    exact (nodup_moduleFindings_iff h hm).2 ⟨hall.flows module hm, hall.machines module hm⟩

end

end ManifestAtlas
