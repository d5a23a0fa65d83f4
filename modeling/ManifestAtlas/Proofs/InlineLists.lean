import Mathlib
import ManifestAtlas.Proofs.FlowchartLines
import ManifestAtlas.Proofs.OutlineLines
import ManifestAtlas.Proofs.RuleNames

/-!
# Lists on one line

The outline puts short lists on one line, behind their number of items
(`inlineListEntry_eq`).  The items are the texts that are not blank, each once
and in the order of their first occurrence
(`firstOccurrences_distinctVisible`).

One such list is that of the rules at a step.  The flowchart lists them too, as
the last part of a label.  Both emitters find the rules in the same way, and
both drop repeated names, but only the outline drops blank ones
(`distinctVisible_outlineRules`).  So both lists or none are shown at a step,
and they are the same unless a rule of the step has a blank name
(`rules_of_step_shown`).
-/

namespace ManifestAtlas

/-! ## Lists in the outline -/

/-- A list on one line: its label, the number of its items, and the items. -/
def inlineText (label : String) (items : List String) (separator : String) : String :=
  counted label items.length ++
    if items = [] then "" else "：" ++ separator.intercalate (items.map escapeOutline)

theorem inlineListEntry_eq (depth : Nat) (label : String) (texts : List String)
    (separator : String) :
    inlineListEntry depth label texts separator =
      .bullet depth (inlineText label (distinctVisible texts) separator) := by
  cases hitems : distinctVisible texts with
  | nil => simp [inlineListEntry, inlineText, hitems]
  | cons item items => simp [inlineListEntry, inlineText, hitems, toString, String.append_assoc]

/-! ## Rules at a step -/

/-- The order number, name and description of a step, as its label in a flowchart shows them. -/
def stepHead (step : Step) : String :=
  s!"{step.order}. {step.name}" ++ (nonempty? step.description).elim "" fun d => "\n" ++ d

/-- The part of a label that lists the names of rules, if there are any. -/
def rulePart (names : List String) : String :=
  if names = [] then "" else "\n规则：" ++ "、".intercalate names

/-- The entries of a step that lists the names of rules, or has no such list. -/
def stepOutline (step : Step) (names : Option (List String)) : List Entry :=
  .bullet 1 s!"第{step.order}步：{escapeOutline step.name}" ::
    (fieldEntry 2 "说明" step.description ++
      names.toList.map (fun names => .bullet 2 (inlineText "规则" names "、")) ++
      placeEntry 2 step.codeRef)

section

variable (rules : List Rule) (step : Step)

theorem stepLabel_eq : stepLabel rules step = stepHead step ++ rulePart (ruleNames rules step) := by
  cases hnames : ruleNames rules step <;> simp [stepLabel, stepHead, rulePart, hnames]

/-- The two emitters look the rules up in the same way. -/
theorem map_appliedName : (appliedRules rules step).map appliedName = outlineRules rules step := by
  rw [appliedRules, outlineRules, List.map_map]
  refine List.map_congr_left fun id _ => ?_
  rw [Function.comp_apply]
  cases findRule? rules id <;> rfl

theorem ruleNames_eq : ruleNames rules step = distinct (outlineRules rules step) := by
  rw [ruleNames, map_appliedName]

theorem firstOccurrences_ruleNames :
    FirstOccurrences (outlineRules rules step) (fun _ => True) (ruleNames rules step) := by
  have hfirst := firstOccurrences_distinct_filter (outlineRules rules step) fun _ => true
  rw [List.filter_true, ← ruleNames_eq] at hfirst
  simpa using hfirst

theorem ruleNames_eq_nil_iff : ruleNames rules step = [] ↔ outlineRules rules step = [] := by
  rw [ruleNames_eq, List.eq_nil_iff_forall_not_mem, List.eq_nil_iff_forall_not_mem]
  simp only [mem_distinct]

/-- The outline leaves out the names that are blank. -/
theorem distinctVisible_outlineRules :
    distinctVisible (outlineRules rules step) =
      (ruleNames rules step).filter fun name => !isBlankText name := by
  rw [distinctVisible, distinct_filter, ruleNames_eq]

theorem stepEntries_eq :
    stepEntries rules step = stepOutline step (if ruleNames rules step = [] then none
      else some (distinctVisible (outlineRules rules step))) := by
  by_cases hnames : ruleNames rules step = []
  · have hnone := (ruleNames_eq_nil_iff rules step).1 hnames
    simp [stepEntries, stepOutline, hnames, hnone]
  · have hsome : outlineRules rules step ≠ [] := mt (ruleNames_eq_nil_iff rules step).2 hnames
    simp [stepEntries, stepOutline, hnames, hsome, inlineListEntry_eq]

/-- A name that is listed at a step is that of a rule, or the identifier of an unknown one. -/
theorem mem_ruleNames {name : String} :
    name ∈ ruleNames rules step ↔ ∃ id ∈ step.rules, isBlankText id = false ∧
      name = ((findRule? rules id).map (·.name)).getD id := by
  simp only [ruleNames_eq, mem_distinct, outlineRules, List.mem_map, mem_distinctVisible, and_assoc,
    @eq_comm _ name]

/-- No name at a step is blank unless a rule of the step has a blank name. -/
theorem forall_mem_ruleNames_iff :
    (∀ name ∈ ruleNames rules step, isBlankText name = false) ↔
      ∀ id ∈ step.rules, isBlankText id = false → ∀ rule, findRule? rules id = some rule →
        isBlankText rule.name = false := by
  constructor
  · intro h id hid hvisible rule hrule
    refine h _ ((mem_ruleNames rules step).2 ⟨id, hid, hvisible, ?_⟩)
    rw [hrule]
    rfl
  · intro h name hname
    obtain ⟨id, hid, hvisible, rfl⟩ := (mem_ruleNames rules step).1 hname
    cases hrule : findRule? rules id with
    | none => exact hvisible
    | some rule => exact h id hid hvisible rule hrule

/-- Both lists have the same names unless a rule of the step has a blank name. -/
theorem distinctVisible_outlineRules_eq_iff :
    distinctVisible (outlineRules rules step) = ruleNames rules step ↔
      ∀ id ∈ step.rules, isBlankText id = false → ∀ rule, findRule? rules id = some rule →
        isBlankText rule.name = false := by
  rw [distinctVisible_outlineRules, List.filter_eq_self, ← forall_mem_ruleNames_iff]
  simp only [Bool.not_eq_true']

end

/-! ## Steps in the outline and the flowchart -/

theorem infix_flatMap {α β : Type} (f : α → List β) {x : α} {xs : List α} (h : x ∈ xs) :
    f x <:+: xs.flatMap f := by
  rw [List.flatMap_def]
  exact List.infix_of_mem_flatten (List.mem_map_of_mem h)

section

variable {manifest : Manifest} {module : Module} {flow : Flow} {step : Step}

theorem isInfix_stepEntries (hs : step ∈ flow.steps) (rules : List Rule) :
    stepEntries rules step <:+: flowEntries rules flow := by
  have hordered : step ∈ flow.orderedSteps := flow.orderedSteps_perm.mem_iff.2 hs
  rw [flowEntries]
  exact List.infix_cons (List.infix_append_of_infix_right
    (List.infix_cons (infix_flatMap _ hordered)))

theorem isInfix_flowEntries (hf : flow ∈ module.flows) :
    flowEntries module.rules flow <:+: moduleEntries module := by
  have hflow := infix_flatMap (flowEntries module.rules) hf
  rw [moduleEntries]
  exact List.infix_cons (List.infix_append_of_infix_left (List.infix_append_of_infix_left
    (List.infix_append_of_infix_left (List.infix_append_of_infix_right (List.infix_cons hflow)))))

theorem isInfix_moduleEntries (hm : module ∈ manifest.modules) :
    moduleEntries module <:+: outlineEntries manifest := by
  have hmodule := infix_flatMap moduleEntries hm
  rw [outlineEntries]
  exact List.infix_append_of_infix_left (List.infix_append_of_infix_left
    (List.infix_append_of_infix_left (List.infix_append_of_infix_left
      (List.infix_append_of_infix_right (List.infix_cons hmodule)))))

/-- The lines of a step stand together in the outline. -/
theorem isInfix_stepLines (hm : module ∈ manifest.modules) (hf : flow ∈ module.flows)
    (hs : step ∈ flow.steps) :
    (stepEntries module.rules step).map Entry.line <:+: splitLines (outline manifest) := by
  rw [splitLines_outline]
  exact List.infix_append_of_infix_left ((((isInfix_stepEntries hs _).trans
    (isInfix_flowEntries hf)).trans (isInfix_moduleEntries hm)).map Entry.line)

/-- The node of a step stands in the flowchart, numbered by the place of the step. -/
theorem stepNode_mem_flowchart (hs : step ∈ flow.steps) (rules : List Rule) :
    ∃ i, flow.orderedSteps[i]? = some step ∧
      nodeLine s!"step_{i + 1}" (escapeLabel (stepLabel rules step)) ∈
        splitLines (flowchart flow rules) := by
  have hordered : step ∈ flow.orderedSteps := flow.orderedSteps_perm.mem_iff.2 hs
  obtain ⟨i, hi⟩ := List.getElem?_of_mem hordered
  have hne : flow.orderedSteps ≠ [] := List.ne_nil_of_mem hordered
  have hplace : (step, i + 1) ∈ flow.orderedSteps.zipIdx 1 := by
    rw [List.mk_mem_zipIdx_iff_le_and_getElem?_sub]
    exact ⟨Nat.le_add_left 1 i, hi⟩
  refine ⟨i, hi, ?_⟩
  rw [splitLines_flowchart, flowLines, executionLines, if_neg hne, stepLines]
  exact List.mem_append_left _ (List.mem_cons_of_mem _ (List.mem_append_left _
    (List.mem_append_right _ (List.mem_flatMap.2 ⟨_, hplace, List.mem_cons_self⟩))))

/-- The flowchart and the outline both list the rules of a step, or none of them does.  The outline
lists the names of the flowchart that are not blank, so that the two lists are the same just if no
rule of the step has a blank name. -/
theorem rules_of_step_shown (hm : module ∈ manifest.modules) (hf : flow ∈ module.flows)
    (hs : step ∈ flow.steps) :
    ∃ names shown : List String,
      (∃ i, flow.orderedSteps[i]? = some step ∧
        nodeLine s!"step_{i + 1}" (escapeLabel (stepHead step ++ rulePart names)) ∈
          splitLines (flowchart flow module.rules)) ∧
      (stepOutline step (if names = [] then none else some shown)).map Entry.line <:+:
        splitLines (outline manifest) ∧
      FirstOccurrences ((distinctVisible step.rules).map fun id =>
        ((module.rule? id).map (·.name)).getD id) (fun _ => True) names ∧
      shown = names.filter (fun name => !isBlankText name) ∧
      (shown = names ↔ ∀ id ∈ step.rules, isBlankText id = false →
        ∀ rule, module.rule? id = some rule → isBlankText rule.name = false) := by
  refine ⟨ruleNames module.rules step, distinctVisible (outlineRules module.rules step), ?_, ?_,
    firstOccurrences_ruleNames module.rules step, distinctVisible_outlineRules module.rules step,
    distinctVisible_outlineRules_eq_iff module.rules step⟩
  · rw [← stepLabel_eq]
    exact stepNode_mem_flowchart hs module.rules
  · rw [← stepEntries_eq]
    exact isInfix_stepLines hm hf hs

end

/-- A module with two rules of one name and a rule with a blank name, and with one step that names
rules by the given identifiers. -/
def checkedModule (ids : List String) : Module where
  id := "order"
  name := "Orders"
  description := ""
  tags := []
  dependencies := []
  codeRefs := []
  flows := [⟨"pay", "Pay", none, none, [⟨none, 1, "check", none, ids, none⟩], none⟩]
  rules := [⟨"r-1", "Stock", .high, none, none, [], [], [], none⟩,
    ⟨"r-2", "Stock", .low, none, none, [], [], [], none⟩,
    ⟨"r-3", " ", .low, none, none, [], [], [], none⟩]
  stateMachines := []
  pseudocodes := []

/-- A manifest with that module. -/
def checkedManifest (ids : List String) : Manifest where
  project := ⟨"Shop", none, none, none, none⟩
  modules := [checkedModule ids]
  entities := []
  dataModels := []
  glossary := .empty
  changelog := []

/-- A repeated rule, another one of its name, an unknown one and a blank identifier. -/
theorem checkedModule_lists_agree :
    let ids := ["r-1", "ghost", "r-1", "r-2", " "]
    let step : Step := ⟨none, 1, "check", none, ids, none⟩
    let flow : Flow := ⟨"pay", "Pay", none, none, [step], none⟩
    checkedModule ids ∈ (checkedManifest ids).modules ∧ flow ∈ (checkedModule ids).flows ∧
      step ∈ flow.steps ∧
      ∃ names shown : List String,
        (stepOutline step (if names = [] then none else some shown)).map Entry.line <:+:
          splitLines (outline (checkedManifest ids)) ∧ shown = names := by
  intro ids step flow
  have hm : checkedModule ids ∈ (checkedManifest ids).modules := List.mem_singleton_self _
  have hf : flow ∈ (checkedModule ids).flows := List.mem_singleton_self _
  have hs : step ∈ flow.steps := List.mem_singleton_self _
  obtain ⟨names, shown, -, hlines, -, -, hiff⟩ := rules_of_step_shown hm hf hs
  refine ⟨hm, hf, hs, names, shown, hlines, hiff.2 fun id hid _ rule hrule => ?_⟩
  obtain ⟨hmem, rfl⟩ := findRule?_mem hrule
  simp only [checkedModule, List.mem_cons, List.not_mem_nil, or_false] at hmem
  rcases hmem with rfl | rfl | rfl
  · decide
  · decide
  · exact absurd hid (by decide)

/-- The flowchart lists the blank name of a rule, which the outline leaves out. -/
theorem checkedModule_lists_differ :
    let step : Step := ⟨none, 1, "check", none, ["r-3", "r-1"], none⟩
    let rules := (checkedModule step.rules).rules
    stepLabel rules step = "1. check\n规则： 、Stock" ∧
      stepEntries rules step = [.bullet 1 "第1步：check", .bullet 2 "规则（1）：Stock"] := by
  decide +kernel

end ManifestAtlas
