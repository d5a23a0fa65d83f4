import ManifestAtlas.Proofs.InlineLists
import ManifestAtlas.Proofs.LintedDiagrams
import ManifestAtlas.Proofs.ReportParts

/-!
# Unknown rules, reported and shown

A step names rules by their identifiers.  The lint looks at every entry of that
list and reports those that no rule of the module has (`reportsRule_iff`).  The
emitters look at the entries that are not blank, each once, and show those that
no rule has as they are (`mem_unknownRules`).

So the lint reports what the emitters show as an identifier, and in addition
the blank entries that no rule has; nothing is shown for these
(`unknownRules_are_visible_reports`).
-/

namespace ManifestAtlas

section

variable {module : Module} {flow : Flow} {id : String}

/-- Some message about a flow calls a rule unknown. -/
def ReportsRule (module : Module) (flow : Flow) (id : String) : Prop :=
  ∃ f ∈ flowFindings module flow, f.message = s!"step references unknown rule `{id}`"

theorem message_eq_unknownRule_iff {f : Finding} :
    f.message = s!"step references unknown rule `{id}`" ↔
      ∃ module flow step, f = .unknownRule module flow step id := by
  have hmessage : s!"step references unknown rule `{id}`" =
      (Finding.unknownRule "" "" "" id).message := rfl
  rw [hmessage, Finding.message_eq_iff]
  constructor
  · rintro ⟨hcheck, hdetails⟩
    cases f with
    | unknownRule module flow step rule =>
      obtain rfl : rule = id := (String.append_left_inj _).1 hdetails
      exact ⟨module, flow, step, rfl⟩
    | _ => cases hcheck
  · rintro ⟨module, flow, step, rfl⟩
    exact ⟨rfl, rfl⟩

theorem mem_stepRuleFindings {step : Step} {f : Finding} :
    f ∈ stepRuleFindings module flow step ↔
      ∃ id ∈ step.rules, module.rule? id = none ∧
        f = .unknownRule module.id flow.id step.name id := by
  simp only [stepRuleFindings, List.mem_map, List.mem_filter, Option.isNone_iff_eq_none, and_assoc,
    @eq_comm _ f]

/-- The lint looks at every entry, blank ones included. -/
theorem reportsRule_iff :
    ReportsRule module flow id ↔ ∃ step ∈ flow.steps, id ∈ step.rules ∧ module.rule? id = none := by
  simp only [ReportsRule, message_eq_unknownRule_iff]
  constructor
  · rintro ⟨f, hf, owner, place, name, rfl⟩
    obtain ⟨step, hstep, hf⟩ := (mem_flowFindings_iff_of_unknownRule rfl).1 hf
    obtain ⟨other, hother, hnone, heq⟩ := mem_stepRuleFindings.1 hf
    cases heq
    exact ⟨step, hstep, hother, hnone⟩
  · rintro ⟨step, hstep, hid, hnone⟩
    exact ⟨_, stepRuleFindings_subset hstep (mem_stepRuleFindings.2 ⟨id, hid, hnone, rfl⟩),
      _, _, _, rfl⟩

theorem unknownRules_eq (rules : List Rule) (flow : Flow) :
    unknownRules rules flow = flow.orderedSteps.flatMap fun step =>
      (distinctVisible step.rules).filter fun id => (findRule? rules id).isNone := by
  refine List.flatMap_congr fun step _ => ?_
  rw [appliedRules, List.filterMap_map, ← List.filterMap_eq_filter]
  refine List.filterMap_congr fun id _ => ?_
  cases hrule : findRule? rules id <;> simp [hrule, Option.guard]

/-- The emitters look at the entries that are not blank. -/
theorem mem_unknownRules {rules : List Rule} :
    id ∈ unknownRules rules flow ↔
      ∃ step ∈ flow.steps,
        id ∈ step.rules ∧ isBlankText id = false ∧ findRule? rules id = none := by
  simp only [unknownRules_eq, List.mem_flatMap, flow.orderedSteps_perm.mem_iff, List.mem_filter,
    mem_distinctVisible, Option.isNone_iff_eq_none, and_assoc]

theorem mem_unknownRules_iff_reportsRule :
    id ∈ unknownRules module.rules flow ↔ ReportsRule module flow id ∧ isBlankText id = false := by
  rw [mem_unknownRules, reportsRule_iff]
  constructor
  · rintro ⟨step, hstep, hid, hvisible, hnone⟩
    exact ⟨⟨step, hstep, hid, hnone⟩, hvisible⟩
  · rintro ⟨⟨step, hstep, hid, hnone⟩, hvisible⟩
    exact ⟨step, hstep, hid, hvisible, hnone⟩

/-- An unknown rule is shown by its identifier, in the flowchart and in the outline. -/
theorem exists_shown_of_mem_unknownRules {rules : List Rule} (h : id ∈ unknownRules rules flow) :
    ∃ step ∈ flow.steps, id ∈ ruleNames rules step ∧ id ∈ outlineRules rules step := by
  obtain ⟨step, hstep, hid, hvisible, hnone⟩ := mem_unknownRules.1 h
  have hname : id ∈ ruleNames rules step :=
    (mem_ruleNames rules step).2 ⟨id, hid, hvisible, by rw [hnone]; rfl⟩
  refine ⟨step, hstep, hname, ?_⟩
  rwa [ruleNames_eq, mem_distinct] at hname

/-- A blank entry that no rule has is all that the lint reports beyond what is shown. -/
theorem forall_reportsRule_iff :
    (∀ id, ReportsRule module flow id ↔ id ∈ unknownRules module.rules flow) ↔
      ∀ step ∈ flow.steps, ∀ id ∈ step.rules, isBlankText id = true →
        ∃ rule, module.rule? id = some rule := by
  simp only [mem_unknownRules_iff_reportsRule, iff_self_and]
  constructor
  · intro h step hstep id hid hblank
    cases hrule : module.rule? id with
    | some rule => exact ⟨rule, rfl⟩
    | none =>
      rw [h id (reportsRule_iff.2 ⟨step, hstep, hid, hrule⟩)] at hblank
      cases hblank
  · intro h id hreports
    obtain ⟨step, hstep, hid, hnone⟩ := reportsRule_iff.1 hreports
    cases hblank : isBlankText id with
    | false => rfl
    | true =>
      obtain ⟨rule, hrule⟩ := h step hstep id hid hblank
      rw [hnone] at hrule
      cases hrule

end

/-- In every flow the rules that the emitters show by their identifiers are those that the lint
calls unknown, without the blank ones.  So the lint and the emitters name the same rules just if no
step has a blank entry that no rule has. -/
theorem unknownRules_are_visible_reports (manifest : Manifest) :
    ((lint manifest).findings.filter (·.flow?.isSome) =
      manifest.flows.flatMap fun (module, flow) => flowFindings module flow) ∧
    ∀ module ∈ manifest.modules, ∀ flow ∈ module.flows,
      (∀ id, id ∈ unknownRules module.rules flow ↔
        ReportsRule module flow id ∧ isBlankText id = false) ∧
      (∀ id ∈ unknownRules module.rules flow, ∃ step ∈ flow.steps,
        id ∈ ruleNames module.rules step ∧ id ∈ outlineRules module.rules step) ∧
      ((∀ id, ReportsRule module flow id ↔ id ∈ unknownRules module.rules flow) ↔
        ∀ step ∈ flow.steps, ∀ id ∈ step.rules, isBlankText id = true →
          ∃ rule, module.rule? id = some rule) := by
  refine ⟨filter_flow?_lint manifest, ?_⟩
  intro module _ flow _
  exact ⟨fun id => mem_unknownRules_iff_reportsRule,
    fun id hid => exists_shown_of_mem_unknownRules hid, forall_reportsRule_iff⟩

/-- A blank entry is reported, and nothing is shown for it. -/
theorem checkedModule_reports_blank :
    let module := checkedModule [" "]
    let flow : Flow := ⟨"pay", "Pay", none, none, [⟨none, 1, "check", none, [" "], none⟩], none⟩
    flow ∈ module.flows ∧ isBlankText " " = true ∧ ReportsRule module flow " " ∧
      unknownRules module.rules flow = [] ∧
      ¬ ∀ id, ReportsRule module flow id ↔ id ∈ unknownRules module.rules flow := by
  intro module flow
  have hreports : ReportsRule module flow " " :=
    reportsRule_iff.2 ⟨_, List.mem_singleton_self _, List.mem_singleton_self _, by decide +kernel⟩
  have hshown : unknownRules module.rules flow = [] := by decide +kernel
  refine ⟨List.mem_singleton_self _, by decide, hreports, hshown, fun h => ?_⟩
  have hmem := (h " ").1 hreports
  rw [hshown] at hmem
  cases hmem

end ManifestAtlas
