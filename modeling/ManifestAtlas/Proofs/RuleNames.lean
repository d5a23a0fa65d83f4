import Mathlib
import ManifestAtlas.Diagram.Flowchart
import ManifestAtlas.Outline.Sections
import ManifestAtlas.Proofs.Occurrences

/-!
# Names of rules at a step

A step names the rules that it applies by their identifiers.  The flowchart and
the outline show the names of the rules, and fall back to the identifier where
there is no such rule.  This module is about steps that need no fallback
(`Step.IsResolved`).

* `exists_resolution`: what both emitters show at such a step are the names of
  rules of the list, one for each identifier that is not blank.
* `flowchart_renamed` and `flowEntries_renamed`: no identifier of a rule is
  shown at all, since other identifiers give the same text.  The renamings that
  count are those that keep identifiers apart and blank ones blank
  (`IsRenaming`).
-/

namespace ManifestAtlas

open Mermaid

/-- Every rule that a step names is in the list. -/
def Step.IsResolved (rules : List Rule) (step : Step) : Prop :=
  ∀ id ∈ step.rules, ∃ rule, findRule? rules id = some rule

/-! ## What a resolved step shows -/

theorem findRule?_mem {rules : List Rule} {id : String} {rule : Rule}
    (h : findRule? rules id = some rule) : rule ∈ rules ∧ rule.id = id :=
  ⟨List.mem_of_find?_eq_some h, by simpa using List.find?_some h⟩

/-- The rules with the given identifiers, as both lookups see them. -/
private theorem exists_rules_of_ids {rules : List Rule} {ids : List String}
    (h : ∀ id ∈ ids, ∃ rule, findRule? rules id = some rule) :
    ∃ named : List Rule, named ⊆ rules ∧ named.map (·.id) = ids ∧
      ids.map (fun id => appliedName (match findRule? rules id with
        | some rule => .inr rule
        | none => .inl id)) = named.map (·.name) ∧
      ids.map (fun id => ((findRule? rules id).map (·.name)).getD id) = named.map (·.name) := by
  induction ids with
  | nil => exact ⟨[], List.nil_subset _, rfl, rfl, rfl⟩
  | cons id ids ih =>
    obtain ⟨rule, hrule⟩ := h id List.mem_cons_self
    obtain ⟨named, hsub, hids, happlied, houtline⟩ :=
      ih fun other hother => h other (List.mem_cons_of_mem _ hother)
    obtain ⟨hmem, hid⟩ := findRule?_mem hrule
    refine ⟨rule :: named, List.cons_subset.2 ⟨hmem, hsub⟩, ?_, ?_, ?_⟩
    · rw [List.map_cons, hid, hids]
    · rw [List.map_cons, List.map_cons, happlied, hrule]
      rfl
    · rw [List.map_cons, List.map_cons, houtline, hrule]
      rfl

/-- At a resolved step the flowchart and the outline show names of rules of the list only: those
of the rules that the step names, in their order. -/
theorem exists_resolution {rules : List Rule} {step : Step} (h : step.IsResolved rules) :
    ∃ named : List Rule, named ⊆ rules ∧ named.map (·.id) = distinctVisible step.rules ∧
      ruleNames rules step = distinct (named.map (·.name)) ∧
      outlineRules rules step = named.map (·.name) := by
  obtain ⟨named, hsub, hids, happlied, houtline⟩ :=
    exists_rules_of_ids fun id hid => h id (mem_distinctVisible.1 hid).1
  refine ⟨named, hsub, hids, ?_, houtline⟩
  rw [ruleNames, appliedRules, List.map_map, ← happlied]
  rfl

/-! ## Other identifiers -/

/-- A renaming of identifiers keeps them apart, and keeps the blank ones blank. -/
structure IsRenaming (rename : String → String) : Prop where
  injective : Function.Injective rename
  blank : ∀ id, isBlankText (rename id) = isBlankText id

/-- A rule under another identifier. -/
def Rule.renamed (rename : String → String) (rule : Rule) : Rule :=
  { rule with id := rename rule.id }

/-- A step that names its rules by other identifiers. -/
def Step.renamed (rename : String → String) (step : Step) : Step :=
  { step with rules := step.rules.map rename }

/-- A flow whose steps name their rules by other identifiers. -/
def Flow.renamed (rename : String → String) (flow : Flow) : Flow :=
  { flow with steps := flow.steps.map (Step.renamed rename) }

section

variable {rename : String → String}

theorem distinctVisible_map (h : IsRenaming rename) (texts : List String) :
    distinctVisible (texts.map rename) = (distinctVisible texts).map rename := by
  rw [distinctVisible, distinctVisible, List.filter_map, distinct_map h.injective.injOn]
  refine congrArg _ (congrArg _ (List.filter_congr fun text _ => ?_))
  rw [Function.comp_apply, h.blank]

theorem findRule?_map (h : IsRenaming rename) (rules : List Rule) (id : String) :
    findRule? (rules.map (Rule.renamed rename)) (rename id) =
      (findRule? rules id).map (Rule.renamed rename) := by
  have hsame : ((fun rule : Rule => rule.id == rename id) ∘ Rule.renamed rename) =
      fun rule => rule.id == id := by
    funext rule
    exact Bool.eq_iff_iff.2 (by simp [Rule.renamed, h.injective.eq_iff])
  rw [findRule?, findRule?, List.find?_map, hsame]

private theorem appliedName_renamed (h : IsRenaming rename) {rules : List Rule} {step : Step}
    (hstep : step.IsResolved rules) :
    (appliedRules (rules.map (Rule.renamed rename)) (step.renamed rename)).map appliedName =
      (appliedRules rules step).map appliedName := by
  rw [appliedRules, appliedRules, Step.renamed, distinctVisible_map h]
  simp only [List.map_map]
  refine List.map_congr_left fun id hid => ?_
  obtain ⟨rule, hrule⟩ := hstep id (mem_distinctVisible.1 hid).1
  simp only [Function.comp_apply, findRule?_map h, hrule, Option.map_some]
  rfl

theorem stepLabel_renamed (h : IsRenaming rename) {rules : List Rule} {step : Step}
    (hstep : step.IsResolved rules) :
    stepLabel (rules.map (Rule.renamed rename)) (step.renamed rename) = stepLabel rules step := by
  have hnames : ruleNames (rules.map (Rule.renamed rename)) (step.renamed rename) =
      ruleNames rules step := congrArg distinct (appliedName_renamed h hstep)
  simp only [stepLabel, hnames]
  rfl

theorem stepEntries_renamed (h : IsRenaming rename) {rules : List Rule} {step : Step}
    (hstep : step.IsResolved rules) :
    stepEntries (rules.map (Rule.renamed rename)) (step.renamed rename) =
      stepEntries rules step := by
  have hnames : outlineRules (rules.map (Rule.renamed rename)) (step.renamed rename) =
      outlineRules rules step := by
    rw [outlineRules, outlineRules, Step.renamed, distinctVisible_map h, List.map_map]
    refine List.map_congr_left fun id hid => ?_
    obtain ⟨rule, hrule⟩ := hstep id (mem_distinctVisible.1 hid).1
    rw [Function.comp_apply, findRule?_map h, hrule]
    rfl
  simp only [stepEntries, hnames]
  rfl

/-- The order of the steps does not depend on the rules that they name. -/
theorem orderedSteps_renamed (flow : Flow) :
    (flow.renamed rename).orderedSteps = flow.orderedSteps.map (Step.renamed rename) := by
  have hsame : ∀ a ∈ flow.steps, ∀ b ∈ flow.steps,
      a.notAfter b = (a.renamed rename).notAfter (b.renamed rename) := fun _ _ _ _ => rfl
  exact (List.map_mergeSort hsame).symm

private theorem stepStatements_renamed (h : IsRenaming rename) {rules : List Rule}
    {steps : List Step} (hsteps : ∀ step ∈ steps, step.IsResolved rules) (previous : String)
    (i : Nat) :
    stepStatements (rules.map (Rule.renamed rename)) previous i
        (steps.map (Step.renamed rename)) =
      stepStatements rules previous i steps := by
  induction steps generalizing previous i with
  | nil => rfl
  | cons step steps ih =>
    rw [List.map_cons, stepStatements, stepStatements,
      stepLabel_renamed h (hsteps step List.mem_cons_self),
      ih fun other hother => hsteps other (List.mem_cons_of_mem _ hother)]

private theorem isResolved_orderedSteps {rules : List Rule} {flow : Flow}
    (hflow : ∀ step ∈ flow.steps, step.IsResolved rules) :
    ∀ step ∈ flow.orderedSteps, step.IsResolved rules :=
  fun step hstep => hflow step (flow.orderedSteps_perm.mem_iff.1 hstep)

/-- The flowchart shows no identifier of a rule. -/
theorem flowchart_renamed (h : IsRenaming rename) {rules : List Rule} {flow : Flow}
    (hflow : ∀ step ∈ flow.steps, step.IsResolved rules) :
    flowchart (flow.renamed rename) (rules.map (Rule.renamed rename)) = flowchart flow rules := by
  have hsteps : executionStatements (rules.map (Rule.renamed rename))
      (flow.renamed rename).orderedSteps = executionStatements rules flow.orderedSteps := by
    have hresolved := isResolved_orderedSteps hflow
    rw [orderedSteps_renamed]
    cases hordered : flow.orderedSteps with
    | nil => rfl
    | cons step steps =>
      rw [hordered] at hresolved
      exact stepStatements_renamed h hresolved triggerNode 1
  rw [flowchart, flowchart, flowDiagram, flowDiagram, hsteps]
  rfl

/-- The outline of a flow shows no identifier of a rule. -/
theorem flowEntries_renamed (h : IsRenaming rename) {rules : List Rule} {flow : Flow}
    (hflow : ∀ step ∈ flow.steps, step.IsResolved rules) :
    flowEntries (rules.map (Rule.renamed rename)) (flow.renamed rename) =
      flowEntries rules flow := by
  have hsteps : (flow.renamed rename).orderedSteps.flatMap
      (stepEntries (rules.map (Rule.renamed rename))) =
        flow.orderedSteps.flatMap (stepEntries rules) := by
    rw [orderedSteps_renamed, List.flatMap_map]
    refine List.flatMap_congr fun step hstep => ?_
    exact stepEntries_renamed h (isResolved_orderedSteps hflow step hstep)
  have hcount : (flow.renamed rename).orderedSteps.length = flow.orderedSteps.length := by
    rw [orderedSteps_renamed, List.length_map]
  rw [flowEntries, flowEntries, hsteps, hcount]
  rfl

end

end ManifestAtlas
