import ManifestAtlas.Proofs.Occurrences

/-!
# Where the findings of the lint come from

The lint looks at the modules of a manifest as a whole, and then at each module
on its own.  This module says what its parts contribute, so that later proofs
need not take the lint apart again.

* `FoundInFlow` and `FoundInMachine` list what can be found in a flow and in a
  state machine, so that what holds of all of it is settled by cases.
* `Finding.owner?` is the module that a finding lies in.  Everything that is
  found in a module names that module (`owner?_of_mem_moduleFindings`), and
  `lint_findings` splits the report accordingly.
* `isClean_iff` says that a clean report holds notes only, and
  `not_mem_of_isClean` turns a possible warning into a contradiction.
* `moduleFindings_subset` and the lemmas below it lead from a flow, a step, a
  state machine or a transition to the report of the manifest.
-/

namespace ManifestAtlas

/-! ## What is found in a list of identifiers or of dependencies -/

theorem mem_duplicateFindings {kind : IdKind} {scope : Scope} {ids : List String} {f : Finding} :
    f ∈ duplicateFindings kind scope ids ↔
      ∃ id ∈ repeated [] ids, f = .duplicateId kind scope id := by
  simp only [duplicateFindings, List.mem_map, eq_comm]

theorem duplicateFindings_eq_nil_iff (kind : IdKind) (scope : Scope) {ids : List String} :
    duplicateFindings kind scope ids = [] ↔ ids.Nodup := by
  rw [duplicateFindings, List.map_eq_nil_iff, repeated_eq_nil_iff]

theorem exists_of_mem_sharedNodeFindings {kind : NodeKind} {tag : String} {ids : List String}
    {f : Finding} (h : f ∈ sharedNodeFindings kind tag ids) :
    ∃ node sharing, f = .sharedNode kind node sharing := by
  obtain ⟨node, _, h⟩ := List.mem_filterMap.1 h
  simp only at h
  split at h
  · exact ⟨node, _, (Option.some.inj h).symm⟩
  · cases h

theorem exists_of_mem_externalFindings {graph : ModuleGraph} {f : Finding}
    (h : f ∈ externalFindings graph) : ∃ id dependants, f = .externalDependency id dependants := by
  obtain ⟨id, _, rfl⟩ := List.mem_map.1 h
  exact ⟨id, _, rfl⟩

theorem exists_of_mem_cycles {cycles : List (List String)} {f : Finding}
    (h : f ∈ cycles.map Finding.dependencyCycle) : ∃ ids, f = .dependencyCycle ids := by
  obtain ⟨ids, _, rfl⟩ := List.mem_map.1 h
  exact ⟨ids, rfl⟩

/-! ## What is found in flows and in state machines -/

/-- What the lint can find in a flow. -/
inductive FoundInFlow (module : Module) (flow : Flow) : Finding → Prop
  | noSteps (hsteps : flow.steps = []) : FoundInFlow module flow (.noSteps module.id flow.id)
  | sharedOrder (order : Int64) : FoundInFlow module flow (.sharedOrder module.id flow.id order)
  | unknownRule (step rule : String) :
    FoundInFlow module flow (.unknownRule module.id flow.id step rule)

/-- What the lint can find in a state machine. -/
inductive FoundInMachine (module : Module) (machine : StateMachine) : Finding → Prop
  | noStates : FoundInMachine module machine (.noStates module.id machine.id)
  | duplicateState (id : String) :
    FoundInMachine module machine (.duplicateId .state (.stateMachine module.id machine.id) id)
  | severalInitial (first : String) (others : List String) :
    FoundInMachine module machine (.severalInitial module.id machine.id first others)
  | noInitial (first : String) :
    FoundInMachine module machine (.noInitial module.id machine.id first)
  | unknownState (source target id : String) :
    FoundInMachine module machine (.unknownState module.id machine.id source target id)

section

variable {module : Module} {flow : Flow} {machine : StateMachine} {f : Finding}

theorem foundInFlow_of_mem_stepFindings {before : List Int64} {steps : List Step}
    (h : f ∈ stepFindings module flow before steps) : FoundInFlow module flow f := by
  induction steps generalizing before with
  | nil => simp [stepFindings] at h
  | cons step steps ih =>
    rw [stepFindings, List.mem_append, List.mem_append] at h
    rcases h with (h | h) | h
    · split at h
      · rw [List.mem_singleton.1 h]
        exact .sharedOrder step.order
      · simp at h
    · obtain ⟨id, _, rfl⟩ := List.mem_map.1 h
      exact .unknownRule step.name id
    · exact ih h

theorem foundInFlow_of_mem (h : f ∈ flowFindings module flow) : FoundInFlow module flow f := by
  rw [flowFindings, List.mem_append] at h
  rcases h with h | h
  · split at h
    · rename_i hempty
      rw [List.mem_singleton.1 h]
      exact .noSteps (List.isEmpty_iff.1 hempty)
    · simp at h
  · exact foundInFlow_of_mem_stepFindings h

/-- The three cases of `initialFindings`: several states are flagged as initial, none of them is,
or there is nothing to say. -/
theorem initialFindings_cases (module : Module) (machine : StateMachine) :
    (∃ first other others, machine.states.filter (·.initial) = first :: other :: others ∧
      initialFindings module machine = [.severalInitial module.id machine.id first.id
        ((other :: others).map (·.id))]) ∨
    (∃ first, machine.states.filter (·.initial) = [] ∧ machine.states.head? = some first ∧
      initialFindings module machine = [.noInitial module.id machine.id first.id]) ∨
    initialFindings module machine = [] := by
  match hflagged : machine.states.filter (·.initial), hfirst : machine.states.head? with
  | first :: other :: others, _ =>
    exact .inl ⟨first, other, others, hflagged, by rw [initialFindings, hflagged]; rfl⟩
  | [], some first =>
    exact .inr (.inl ⟨first, hflagged, rfl, by rw [initialFindings, hflagged, hfirst]; rfl⟩)
  | [_], _ => exact .inr (.inr (by rw [initialFindings, hflagged]; rfl))
  | [], none => exact .inr (.inr (by rw [initialFindings, hflagged, hfirst]; rfl))

theorem foundInMachine_of_mem (h : f ∈ stateMachineFindings module machine) :
    FoundInMachine module machine f := by
  simp only [stateMachineFindings, List.mem_append, List.mem_flatMap] at h
  rcases h with ((h | h) | h) | ⟨t, _, h⟩
  · split at h
    · rw [List.mem_singleton.1 h]
      exact .noStates
    · simp at h
  · obtain ⟨id, _, rfl⟩ := mem_duplicateFindings.1 h
    exact .duplicateState id
  · rcases initialFindings_cases module machine with ⟨first, other, others, _, heq⟩ |
      ⟨first, _, _, heq⟩ | heq <;> rw [heq] at h
    · rw [List.mem_singleton.1 h]
      exact .severalInitial first.id _
    · rw [List.mem_singleton.1 h]
      exact .noInitial first.id
    · cases h
  · obtain ⟨id, _, rfl⟩ := List.mem_map.1 h
    exact .unknownState t.source t.target id

end

/-! ## The module that a finding lies in -/

/-- The module that a finding lies in; none for a finding about the modules as a whole. -/
def Finding.owner? : Finding → Option String
  | .duplicateId _ (.module owner) _ | .duplicateId _ (.stateMachine owner _) _ => some owner
  | .noSteps owner _ | .sharedOrder owner _ _ | .unknownRule owner _ _ _ => some owner
  | .noStates owner _ | .severalInitial owner _ _ _ | .noInitial owner _ _ => some owner
  | .unknownState owner _ _ _ _ => some owner
  | .duplicateId _ .manifest _ | .sharedNode _ _ _ | .externalDependency _ _
  | .dependencyCycle _ => none

/-- What is found in a module names that module. -/
theorem owner?_of_mem_moduleFindings {module : Module} {f : Finding}
    (h : f ∈ moduleFindings module) : f.owner? = some module.id := by
  simp only [moduleFindings, List.mem_append, List.mem_flatMap] at h
  have hduplicates : ∀ kind ids, f ∈ duplicateFindings kind (.module module.id) ids →
      f.owner? = some module.id := by
    intro kind ids h
    obtain ⟨id, _, rfl⟩ := mem_duplicateFindings.1 h
    rfl
  rcases h with (((h | h) | h) | ⟨flow, _, h⟩) | ⟨machine, _, h⟩
  · exact hduplicates _ _ h
  · exact hduplicates _ _ h
  · exact hduplicates _ _ h
  · cases foundInFlow_of_mem h <;> rfl
  · cases foundInMachine_of_mem h <;> rfl

/-- The findings about the modules of a manifest as a whole. -/
def graphFindings (manifest : Manifest) : List Finding :=
  let graph := ModuleGraph.build manifest
  let ids := manifest.modules.map (·.id)
  duplicateFindings .module .manifest ids ++
  sharedNodeFindings .modules moduleTag ids ++
  sharedNodeFindings .dependencies externalTag graph.externals ++
  externalFindings graph ++
  graph.cycles.map .dependencyCycle

theorem lint_findings (manifest : Manifest) :
    (lint manifest).findings = graphFindings manifest ++ manifest.modules.flatMap moduleFindings :=
  rfl

theorem filter_findings_eq_nil {p : Finding → Bool} {findings : List Finding}
    (h : ∀ f ∈ findings, p f = false) : findings.filter p = [] := by
  rw [List.filter_eq_nil_iff]
  intro f hf
  rw [h f hf]
  exact Bool.false_ne_true

section

variable {p : Finding → Bool}

theorem filter_duplicateFindings_eq_nil
    (hp : ∀ kind scope id, p (.duplicateId kind scope id) = false)
    (kind : IdKind) (scope : Scope) (ids : List String) :
    (duplicateFindings kind scope ids).filter p = [] := by
  refine filter_findings_eq_nil fun f hf => ?_
  obtain ⟨id, _, rfl⟩ := mem_duplicateFindings.1 hf
  exact hp kind scope id

theorem filter_sharedNodeFindings_eq_nil
    (hp : ∀ kind node ids, p (.sharedNode kind node ids) = false)
    (kind : NodeKind) (tag : String) (ids : List String) :
    (sharedNodeFindings kind tag ids).filter p = [] := by
  refine filter_findings_eq_nil fun f hf => ?_
  obtain ⟨node, sharing, rfl⟩ := exists_of_mem_sharedNodeFindings hf
  exact hp kind node sharing

theorem filter_externalFindings_eq_nil
    (hp : ∀ id dependants, p (.externalDependency id dependants) = false) (graph : ModuleGraph) :
    (externalFindings graph).filter p = [] := by
  refine filter_findings_eq_nil fun f hf => ?_
  obtain ⟨id, dependants, rfl⟩ := exists_of_mem_externalFindings hf
  exact hp id dependants

theorem filter_cycles_eq_nil (hp : ∀ ids, p (.dependencyCycle ids) = false)
    (cycles : List (List String)) : (cycles.map Finding.dependencyCycle).filter p = [] := by
  refine filter_findings_eq_nil fun f hf => ?_
  obtain ⟨ids, rfl⟩ := exists_of_mem_cycles hf
  exact hp ids

end

/-- A selection that takes no finding of a single module sees the findings about the modules as a
whole only. -/
theorem filter_lint_findings {manifest : Manifest} {p : Finding → Bool}
    (hp : ∀ f owner, Finding.owner? f = some owner → p f = false) :
    (lint manifest).findings.filter p = (graphFindings manifest).filter p := by
  have hown : (manifest.modules.flatMap moduleFindings).filter p = [] := by
    refine filter_findings_eq_nil fun f hf => ?_
    obtain ⟨module, _, hf⟩ := List.mem_flatMap.1 hf
    exact hp f _ (owner?_of_mem_moduleFindings hf)
  rw [lint_findings, List.filter_append, hown, List.append_nil]

/-! ## Clean reports -/

theorem Finding.severity_eq (f : Finding) : f.severity = .warning ∨ f.severity = .note := by
  cases f <;> simp [Finding.severity]

/-- A report is clean when it holds notes only. -/
theorem isClean_iff {report : LintReport} :
    report.isClean = true ↔ ∀ f ∈ report.findings, f.severity = .note := by
  simp only [LintReport.isClean, LintReport.diagnostics, List.all_map, List.all_eq_true,
    Function.comp_apply, Finding.diagnostic]
  refine forall₂_congr fun f _ => ?_
  rcases f.severity_eq with h | h
  · rw [h]
    decide
  · rw [h]
    decide

/-- A clean report holds no warning. -/
theorem not_mem_of_isClean {report : LintReport} (h : report.isClean = true) {f : Finding}
    (hf : f.severity = .warning) : f ∉ report.findings := by
  intro hmem
  have hnote := isClean_iff.1 h f hmem
  rw [hf] at hnote
  cases hnote

/-! ## From the parts to the report -/

section

variable {manifest : Manifest} {module : Module}

theorem moduleFindings_subset (hm : module ∈ manifest.modules) :
    moduleFindings module ⊆ (lint manifest).findings := by
  intro f hf
  rw [lint_findings]
  exact List.mem_append_right _ (List.mem_flatMap.2 ⟨module, hm, hf⟩)

theorem flowFindings_subset {flow : Flow} (hf : flow ∈ module.flows) :
    flowFindings module flow ⊆ moduleFindings module := by
  intro f h
  simp only [moduleFindings, List.mem_append]
  exact .inl (.inr (List.mem_flatMap.2 ⟨flow, hf, h⟩))

theorem stateMachineFindings_subset {machine : StateMachine} (hm : machine ∈ module.stateMachines) :
    stateMachineFindings module machine ⊆ moduleFindings module := by
  intro f h
  simp only [moduleFindings, List.mem_append]
  exact .inr (List.mem_flatMap.2 ⟨machine, hm, h⟩)

private theorem stepRuleFindings_subset_aux {flow : Flow} {step : Step} {before : List Int64}
    {steps : List Step} (hs : step ∈ steps) :
    stepRuleFindings module flow step ⊆ stepFindings module flow before steps := by
  induction steps generalizing before with
  | nil => simp at hs
  | cons other steps ih =>
    intro f hf
    rw [stepFindings, List.mem_append, List.mem_append]
    rcases List.mem_cons.1 hs with rfl | hs
    · exact .inl (.inr hf)
    · exact .inr (ih hs hf)

/-- The order in which the steps are looked at loses none of them. -/
theorem stepRuleFindings_subset {flow : Flow} {step : Step} (hs : step ∈ flow.steps) :
    stepRuleFindings module flow step ⊆ flowFindings module flow := by
  intro f hf
  have hordered : step ∈ flow.orderedSteps := flow.orderedSteps_perm.mem_iff.2 hs
  exact List.mem_append_right _ (stepRuleFindings_subset_aux hordered hf)

end

end ManifestAtlas
