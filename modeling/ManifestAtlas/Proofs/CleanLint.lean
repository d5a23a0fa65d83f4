import ManifestAtlas.Proofs.LintFindings
import ManifestAtlas.Proofs.RuleNames
import ManifestAtlas.Proofs.StateDrafts

/-!
# What a clean report rules out

The diagrams and the outline take a manifest as it is, and have a fallback for
everything that may be wrong with it: the identifier in place of an unknown
rule, an alias for an undeclared state, a placeholder for a machine without
states.  `clean_lint_takes_no_fallback` shows that none of them is taken when
the lint has no warning.

Every check of the lint is turned around on the way: from the absence of its
warning to what it looked for.  `nodup_of_isClean` does so for repeated
identifiers, `isResolved_of_isClean` for the rules of a step, and
`isDeclared_of_isClean` for the states of a machine.
-/

namespace ManifestAtlas

open Mermaid

/-! ## The checks turned around -/

/-- In a list without repeated keys, each element is the only one with its key. -/
theorem filter_key_eq_singleton {α : Type} (key : α → String) {l : List α}
    (h : (l.map key).Nodup) {a : α} (ha : a ∈ l) : l.filter (fun b => key b = key a) = [a] := by
  induction l with
  | nil => cases ha
  | cons b l ih =>
    rw [List.map_cons, List.nodup_cons] at h
    rcases List.mem_cons.1 ha with rfl | ha
    · have hnone : l.filter (fun c => key c = key a) = [] := by
        rw [List.filter_eq_nil_iff]
        intro c hc hkey
        exact h.1 (List.mem_map.2 ⟨c, hc, of_decide_eq_true hkey⟩)
      rw [List.filter_cons_of_pos (by simp), hnone]
    · have hne : key b ≠ key a := fun hkey => h.1 (List.mem_map.2 ⟨a, ha, hkey.symm⟩)
      rw [List.filter_cons_of_neg (by simpa using hne), ih h.2 ha]

/-- Identifiers that a clean report has looked at do not repeat. -/
theorem nodup_of_isClean {report : LintReport} (h : report.isClean = true) (kind : IdKind)
    (scope : Scope) {ids : List String}
    (hsub : duplicateFindings kind scope ids ⊆ report.findings) : ids.Nodup := by
  rw [← duplicateFindings_eq_nil_iff kind scope, List.eq_nil_iff_forall_not_mem]
  intro f hf
  obtain ⟨id, _, rfl⟩ := mem_duplicateFindings.1 hf
  exact not_mem_of_isClean h rfl (hsub hf)

section

variable {manifest : Manifest} {module : Module}

theorem nodup_ruleIds_of_isClean (h : (lint manifest).isClean = true)
    (hm : module ∈ manifest.modules) : (module.rules.map (·.id)).Nodup := by
  refine nodup_of_isClean h .rule (.module module.id) fun f hf => ?_
  refine moduleFindings_subset hm ?_
  simp only [moduleFindings, List.mem_append]
  exact .inl (.inl (.inl (.inr hf)))

/-- Every rule that a step names exists. -/
theorem isResolved_of_isClean (h : (lint manifest).isClean = true)
    (hm : module ∈ manifest.modules) {flow : Flow} (hf : flow ∈ module.flows) {step : Step}
    (hs : step ∈ flow.steps) : step.IsResolved module.rules := by
  intro id hid
  cases hrule : findRule? module.rules id with
  | some rule => exact ⟨rule, rfl⟩
  | none =>
    have hunknown : (module.rule? id).isNone = true := by
      rw [Module.rule?, hrule]
      rfl
    have hfound : Finding.unknownRule module.id flow.id step.name id ∈
        stepRuleFindings module flow step :=
      List.mem_map.2 ⟨id, List.mem_filter.2 ⟨hid, hunknown⟩, rfl⟩
    exact absurd (moduleFindings_subset hm (flowFindings_subset hf (stepRuleFindings_subset hs
      hfound))) (not_mem_of_isClean h rfl)

/-- Every rule that a step names exists exactly once. -/
theorem exists_rule_of_isClean (h : (lint manifest).isClean = true)
    (hm : module ∈ manifest.modules) {flow : Flow} (hf : flow ∈ module.flows) {step : Step}
    (hs : step ∈ flow.steps) {id : String} (hid : id ∈ step.rules) :
    ∃ rule, module.rules.filter (fun r => r.id = id) = [rule] := by
  obtain ⟨rule, hrule⟩ := isResolved_of_isClean h hm hf hs id hid
  obtain ⟨hmem, rfl⟩ := findRule?_mem hrule
  exact ⟨rule, filter_key_eq_singleton (·.id) (nodup_ruleIds_of_isClean h hm) hmem⟩

/-- No warning about a state machine of a clean manifest. -/
theorem not_mem_stateMachineFindings (h : (lint manifest).isClean = true)
    (hm : module ∈ manifest.modules) {machine : StateMachine}
    (hs : machine ∈ module.stateMachines) {f : Finding} (hf : f.severity = .warning) :
    f ∉ stateMachineFindings module machine := fun hfound =>
  not_mem_of_isClean h hf
    (moduleFindings_subset hm (stateMachineFindings_subset hs hfound))

theorem isDeclared_of_isClean (h : (lint manifest).isClean = true)
    (hm : module ∈ manifest.modules) {machine : StateMachine}
    (hs : machine ∈ module.stateMachines) : machine.IsDeclared where
  nonempty := by
    intro hnil
    refine not_mem_stateMachineFindings h hm hs (f := .noStates module.id machine.id) rfl ?_
    simp [stateMachineFindings, hnil]
  nodup := by
    refine nodup_of_isClean h .state (.stateMachine module.id machine.id)
      fun f hf => ?_
    refine moduleFindings_subset hm (stateMachineFindings_subset hs ?_)
    simp only [stateMachineFindings, List.mem_append]
    exact .inl (.inl (.inr hf))
  ends := by
    intro t ht id hid
    cases hstate : machine.state? id with
    | some state =>
      have hkey : state.id = id := by simpa using List.find?_some hstate
      exact List.mem_map.2 ⟨state, List.mem_of_find?_eq_some hstate, hkey⟩
    | none =>
      have hfound : Finding.unknownState module.id machine.id t.source t.target id ∈
          transitionFindings module machine t :=
        List.mem_map.2 ⟨id, List.mem_filter.2 ⟨hid, by rw [hstate]; rfl⟩, rfl⟩
      refine absurd ?_ (not_mem_stateMachineFindings h hm hs
        (f := .unknownState module.id machine.id t.source t.target id) rfl)
      simp only [stateMachineFindings, List.mem_append]
      exact .inr (List.mem_flatMap.2 ⟨t, ht, hfound⟩)

/-- At most one state is flagged as initial. -/
theorem length_initial_le_of_isClean (h : (lint manifest).isClean = true)
    (hm : module ∈ manifest.modules) {machine : StateMachine}
    (hs : machine ∈ module.stateMachines) : (machine.states.filter (·.initial)).length ≤ 1 := by
  match hinitial : machine.states.filter (·.initial) with
  | [] => simp [hinitial]
  | [_] => simp [hinitial]
  | first :: other :: others =>
    refine absurd ?_ (not_mem_stateMachineFindings h hm hs (f := .severalInitial module.id
      machine.id first.id (other.id :: others.map (·.id))) rfl)
    simp [stateMachineFindings, initialFindings, hinitial]

end

/-! ## No fallback -/

/-- A flow shows the rules of its steps by name.  Each identifier belongs to one rule, both
emitters show the names of these rules, and neither text depends on the identifiers. -/
structure Flow.ShowsRuleNames (flow : Flow) (rules : List Rule) : Prop where
  unique : ∀ step ∈ flow.steps, ∀ id ∈ step.rules,
    ∃ rule, rules.filter (fun r => r.id = id) = [rule]
  names : ∀ step ∈ flow.steps, ∃ named : List Rule,
    named ⊆ rules ∧ named.map (·.id) = distinctVisible step.rules ∧
      ruleNames rules step = distinct (named.map (·.name)) ∧
      outlineRules rules step = named.map (·.name)
  flowchart : ∀ rename, IsRenaming rename →
    flowchart (flow.renamed rename) (rules.map (Rule.renamed rename)) = flowchart flow rules
  outline : ∀ rename, IsRenaming rename →
    flowEntries (rules.map (Rule.renamed rename)) (flow.renamed rename) = flowEntries rules flow

/-- A machine is drawn with its declared states only: the aliases are `S1` up to `Sn` for its `n`
states, each declared once, and every arrow runs between them.  The lines of the text are those of
the machine under these aliases, and none of them is the placeholder. -/
structure StateMachine.ShowsDeclaredStates (machine : StateMachine) : Prop where
  nonempty : machine.states ≠ []
  nodup : (machine.states.map (·.id)).Nodup
  initial : (machine.states.filter (·.initial)).length ≤ 1
  declared : machine.diagram.declared =
    (List.range machine.states.length).map fun i => s!"S{i + 1}"
  arrows : ∀ name ∈ machine.diagram.arrowEnds, machine.diagram.declared.count name = 1
  placeholder : emptyAlias ∉ machine.diagram.declared ∧ emptyAlias ∉ machine.diagram.arrowEnds
  ends : ∀ t ∈ machine.transitions, ∀ id ∈ t.ends, ∃ state ∈ machine.states, state.id = id
  lines : ∃ name : String → String, ∃ start ∈ machine.states,
    (machine.states.map fun s => name s.id) =
      (List.range machine.states.length).map (fun i => s!"S{i + 1}") ∧
    startLines machine name = [arrowLine "[*]" (name start.id)] ∧
    splitLines (stateDiagram machine) =
      "stateDiagram-v2" :: machineLines machine name ++ [""]
  noPlaceholder : placeholderLine ∉ splitLines (stateDiagram machine)

theorem showsRuleNames_of_isClean {manifest : Manifest} (h : (lint manifest).isClean = true)
    {module : Module} (hm : module ∈ manifest.modules) {flow : Flow} (hf : flow ∈ module.flows) :
    flow.ShowsRuleNames module.rules where
  unique _ hs _ hid := exists_rule_of_isClean h hm hf hs hid
  names _ hs := exists_resolution (isResolved_of_isClean h hm hf hs)
  flowchart _ hrename :=
    flowchart_renamed hrename fun _ hs => isResolved_of_isClean h hm hf hs
  outline _ hrename :=
    flowEntries_renamed hrename fun _ hs => isResolved_of_isClean h hm hf hs

theorem showsDeclaredStates_of_declared {machine : StateMachine} (h : machine.IsDeclared)
    (hinitial : (machine.states.filter (·.initial)).length ≤ 1) :
    machine.ShowsDeclaredStates where
  nonempty := h.nonempty
  nodup := h.nodup
  initial := hinitial
  declared := declared_diagram h
  arrows _ hname := count_declared h (mem_declared_of_mem_arrowEnds h hname)
  placeholder := ⟨emptyAlias_notMem_declared h,
    fun hname => emptyAlias_notMem_declared h (mem_declared_of_mem_arrowEnds h hname)⟩
  ends t ht id hid := List.mem_map.1 (h.ends t ht id hid)
  lines := by
    obtain ⟨start, hmem, hstart⟩ := exists_startState? h.nonempty
    exact ⟨machine.aliases.nameOf, start, hmem, map_nameOf_states h,
      startLines_of_startState? hstart, splitLines_stateDiagram machine⟩
  noPlaceholder := placeholder_mem_stateDiagram_iff.not.2 h.nonempty

/-- Where the lint has no warning, no fallback is taken for a rule or a state. -/
theorem clean_lint_takes_no_fallback {manifest : Manifest} (h : (lint manifest).isClean = true) :
    ∀ module ∈ manifest.modules,
      (∀ flow ∈ module.flows, flow.ShowsRuleNames module.rules) ∧
      (∀ machine ∈ module.stateMachines, machine.ShowsDeclaredStates) :=
  fun _ hm => ⟨fun _ hf => showsRuleNames_of_isClean h hm hf,
    fun _ hs => showsDeclaredStates_of_declared (isDeclared_of_isClean h hm hs)
      (length_initial_le_of_isClean h hm hs)⟩

/-- The states of an order. -/
def orderStatus : StateMachine where
  id := "status"
  name := "Status"
  description := none
  entity := none
  states := [⟨"open", "Open", none, true, false⟩, ⟨"paid", "Paid", none, false, true⟩]
  transitions := [⟨"open", "paid", some "pay", none⟩]

/-- A module for orders, with one rule that one step applies. -/
def orderModule : Module where
  id := "order"
  name := "Orders"
  description := ""
  tags := []
  dependencies := ["stock"]
  codeRefs := []
  flows := [⟨"pay", "Pay", none, none, [⟨none, 1, "check", none, ["r-1"], none⟩], none⟩]
  rules := [⟨"r-1", "In stock", .high, none, none, [], [], [], none⟩]
  stateMachines := [orderStatus]
  pseudocodes := []

/-- A manifest in which nothing is wrong. -/
def orderManifest : Manifest where
  project := ⟨"Shop", none, none, none, none⟩
  modules := [orderModule]
  entities := []
  dataModels := []
  glossary := .empty
  changelog := []

theorem orderManifest_takes_no_fallback :
    (lint orderManifest).isClean = true ∧ orderModule ∈ orderManifest.modules ∧
      (∀ flow ∈ orderModule.flows, flow.ShowsRuleNames orderModule.rules) ∧
      orderStatus.diagram.declared = ["S1", "S2"] := by
  have hclean : (lint orderManifest).isClean = true := by decide +kernel
  have hmem : orderModule ∈ orderManifest.modules := List.mem_singleton_self _
  have h := clean_lint_takes_no_fallback hclean orderModule hmem
  have hstates := h.2 orderStatus (List.mem_singleton_self _)
  exact ⟨hclean, hmem, h.1, hstates.declared⟩

end ManifestAtlas
