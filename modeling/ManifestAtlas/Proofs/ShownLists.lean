import Mathlib
import ManifestAtlas.Proofs.InlineLists

/-!
# The bullets with a count

Some bullets of an outline have a count behind their label: those that show a
list on one line, and those that have the items of a list under them.  A reader
finds them by their depth and their label (`labelledLines`).

The other bullets of a section have other labels, or hold free text at a depth
of their own (`IsOther`).  So a selection that takes none of them leaves only
the bullets with a count (`filter_moduleEntries`).  What is found under a label
are then the lists of the manifest, one for one and in order
(`showsModuleLists`, `showsEntityLists`), or the numbers of items in them
(`showsModuleCounts`).
-/

namespace ManifestAtlas

/-! ## Bullets with a label -/

/-- The bullets with a label and a count behind it. -/
def labelledLines (depth : Nat) (label : String) (lines : List String) : List String :=
  lines.filter fun line => (Entry.bullet depth (label ++ "（")).line.toList.isPrefixOf line.toList

/-- Whether an entry is a bullet with a label and a count behind it. -/
def Entry.isLabelled (depth : Nat) (label : String) : Entry → Bool
  | .heading _ _ => false
  | .bullet d text =>
    min d Lines.maxNesting = min depth Lines.maxNesting ∧
      (label ++ "（").toList.isPrefixOf text.toList

theorem toList_bullet (depth : Nat) (text : String) :
    (Entry.bullet depth text).line.toList =
      List.replicate (2 * min depth Lines.maxNesting) ' ' ++ '-' :: ' ' :: text.toList := by
  simp [Entry.line, Lines.nestedLine]

/-- Indented by the same number of spaces, a text starts with another one. -/
theorem replicate_prefix_iff {mark next : Char} (hne : next ≠ mark) {a b : Nat}
    {x y : List Char} :
    List.replicate a mark ++ next :: x <+: List.replicate b mark ++ next :: y ↔
      a = b ∧ x <+: y := by
  induction a generalizing b with
  | zero =>
    cases b with
    | zero => simp [List.cons_prefix_cons]
    | succ b => simp [List.replicate_succ, List.cons_prefix_cons, hne]
  | succ a ih =>
    cases b with
    | zero => simp [List.replicate_succ, List.cons_prefix_cons, hne.symm]
    | succ b => simpa [List.replicate_succ, List.cons_prefix_cons] using ih

/-- A heading starts with a number sign. -/
theorem exists_toList_heading (level : Nat) (text : String) :
    ∃ rest, (Entry.heading level text).line.toList = '#' :: rest := by
  obtain ⟨signs, hsigns⟩ : ∃ signs, max 1 (min level maxHeadingLevel) = signs + 1 :=
    Nat.exists_eq_add_one.2 (by omega)
  refine ⟨List.replicate signs '#' ++ ' ' :: text.toList, ?_⟩
  simp [Entry.line, headingLine, hsigns, List.replicate_succ]

theorem labelledLines_lines (depth : Nat) (label : String) (entries : List Entry) :
    labelledLines depth label (entries.map Entry.line) =
      (entries.filter (Entry.isLabelled depth label)).map Entry.line := by
  rw [labelledLines, List.filter_map]
  refine congrArg _ (List.filter_congr fun entry _ => ?_)
  rw [Function.comp_apply, Bool.eq_iff_iff, List.isPrefixOf_iff_prefix, toList_bullet]
  cases entry with
  | heading level text =>
    obtain ⟨rest, hrest⟩ := exists_toList_heading level text
    rw [hrest]
    cases 2 * min depth Lines.maxNesting <;>
      simp [List.replicate_succ, List.cons_prefix_cons, Entry.isLabelled]
  | bullet d text =>
    rw [toList_bullet, replicate_prefix_iff (by decide)]
    simp only [Entry.isLabelled, decide_eq_true_eq, List.isPrefixOf_iff_prefix,
      List.cons_prefix_cons, true_and]
    refine and_congr_left fun _ => ?_
    omega

/-! ## Entries without a count -/

/-- An entry that is a heading, a bullet with free text one level deep, or a bullet whose text
starts in one of the given ways. -/
inductive IsOther (starts : List String) : Entry → Prop
  | heading (level : Nat) (text : String) : IsOther starts (.heading level text)
  | item (text : String) : IsOther starts (.bullet 1 text)
  | labelled (depth : Nat) (start rest : String) (h : start ∈ starts) :
    IsOther starts (.bullet depth (start ++ rest))

/-- A label that cannot be mistaken for one of the given starts. -/
def IsApart (label : String) (starts : List String) : Prop :=
  ∀ start ∈ starts, ¬ (label ++ "（").toList <+: start.toList ∧
    ¬ start.toList <+: (label ++ "（").toList

instance (label : String) (starts : List String) : Decidable (IsApart label starts) :=
  inferInstanceAs (Decidable (∀ _ ∈ _, _))

/-- A text with one start does not begin with a label that is apart from it. -/
theorem IsApart.not_starts {label start : String} {starts : List String}
    (h : IsApart label starts) (hstart : start ∈ starts) (rest : String) :
    ¬ (label ++ "（").toList <+: (start ++ rest).toList := by
  intro hlabel
  have hrest : start.toList <+: (start ++ rest).toList := by
    rw [String.toList_append]
    exact List.prefix_append _ _
  rcases List.prefix_or_prefix_of_prefix hlabel hrest with hprefix | hprefix
  · exact (h start hstart).1 hprefix
  · exact (h start hstart).2 hprefix

theorem IsOther.isLabelled_eq_false {starts : List String} {entry : Entry}
    (h : IsOther starts entry) {depth : Nat} {label : String} (hdepth : depth ≠ 1)
    (hlabel : IsApart label starts) : entry.isLabelled depth label = false := by
  cases h with
  | heading level text => rfl
  | item text =>
    have hother : min 1 Lines.maxNesting ≠ min depth Lines.maxNesting := by
      simp only [Lines.maxNesting]
      omega
    simp [Entry.isLabelled, hother]
  | labelled d start rest hstart =>
    simpa [Entry.isLabelled] using fun _ => hlabel.not_starts hstart rest

theorem counted_eq (label : String) (n : Nat) :
    counted label n = label ++ "（" ++ (n.repr ++ "）") := by
  rw [← String.toList_inj]
  simp [counted, toString]

theorem inlineText_eq (label : String) (items : List String) (separator : String) :
    ∃ rest, inlineText label items separator = label ++ "（" ++ rest := by
  rw [inlineText, counted_eq, String.append_assoc]
  exact ⟨_, rfl⟩

section

variable {starts : List String} {depth : Nat} {label : String}

theorem isOther_of_mem_fieldEntry {text : Option String} (hlabel : label ++ "：" ∈ starts)
    {entry : Entry} (h : entry ∈ fieldEntry depth label text) : IsOther starts entry := by
  obtain ⟨shown, _, rfl⟩ := List.mem_map.1 h
  exact .labelled depth (label ++ "：") (escapeOutline shown) hlabel

theorem isOther_of_mem_placeEntry {place : Option CodeRef} (hlabel : "代码位置：" ∈ starts)
    {entry : Entry} (h : entry ∈ placeEntry depth place) : IsOther starts entry := by
  simp only [placeEntry] at h
  split at h
  · cases h
  · rw [List.mem_singleton.1 h]
    exact .labelled depth "代码位置：" (inlineCode (displayPlace place)) hlabel

end

/-! ## The counts of a module -/

/-- How the texts of the bullets without a count start, but for the items of lists. -/
def plainStarts : List String :=
  ["描述：", "触发：", "代码位置：", "说明：", "优先级：", "分类：", "实体：", "签名：", "返回：", "【"]

/-- The lists of the names of rules at the steps of a flow that have any. -/
def Flow.ruleLists (rules : List Rule) (flow : Flow) : List (List String) :=
  (flow.orderedSteps.map (outlineRules rules)).filter (· ≠ [])

/-- The list of the fields that a rule has an impact on, if there are any. -/
def Rule.impactLists (rule : Rule) : List (List String) :=
  [rule.impactedFields].filter (· ≠ [])

/-- The bullets with a count in a flow. -/
def Flow.countedEntries (rules : List Rule) (flow : Flow) : List Entry :=
  .bullet 0 (counted "步骤" flow.orderedSteps.length) ::
    (flow.ruleLists rules).map fun texts => inlineListEntry 2 "规则" texts "、"

/-- The bullets with a count in a rule. -/
def Rule.countedEntries (rule : Rule) : List Entry :=
  .bullet 0 (counted "约束" (distinctVisible rule.constraints).length) ::
    .bullet 0 (counted "效果" (distinctVisible rule.effects).length) ::
    rule.impactLists.map fun texts => inlineListEntry 0 "影响字段" texts "、"

/-- The bullets with a count in a state machine. -/
def StateMachine.countedEntries (machine : StateMachine) : List Entry :=
  [.bullet 0 (counted "状态" machine.states.length),
    .bullet 0 (counted "转换" machine.transitions.length)]

/-- The bullets with a count in an operation in pseudocode. -/
def Pseudocode.countedEntries (pseudo : Pseudocode) : List Entry :=
  [.bullet 0 (counted "参数" pseudo.params.length),
    .bullet 0 (counted "步骤" pseudo.steps.length),
    .bullet 0 (counted "外部调用" pseudo.calls.length)]

/-- The bullets with a count in a module. -/
def Module.countedEntries (module : Module) : List Entry :=
  [inlineListEntry 0 "标签" module.tags "、", inlineListEntry 0 "依赖" module.dependencies "、",
    .bullet 0 (counted "代码" module.places.length)] ++
  module.flows.flatMap (Flow.countedEntries module.rules) ++
  module.rules.flatMap Rule.countedEntries ++
  module.stateMachines.flatMap StateMachine.countedEntries ++
  module.pseudocodes.flatMap Pseudocode.countedEntries

private theorem flatMap_ite_nil {α β : Type} (f : α → List String) (g : List String → β)
    (l : List α) :
    (l.flatMap fun a => if f a = [] then [] else [g (f a)]) =
      ((l.map f).filter (· ≠ [])).map g := by
  induction l with
  | nil => rfl
  | cons a l ih =>
    rw [List.flatMap_cons, List.map_cons, List.filter_cons, ih]
    by_cases ha : f a = []
    · simp [ha]
    · simp [ha]

section

variable {p : Entry → Bool} (hp : ∀ entry, IsOther plainStarts entry → p entry = false)

include hp

private theorem filter_eq_nil_of_isOther {entries : List Entry}
    (h : ∀ entry ∈ entries, IsOther plainStarts entry) : entries.filter p = [] := by
  rw [List.filter_eq_nil_iff]
  intro entry hentry
  rw [hp entry (h entry hentry)]
  exact Bool.false_ne_true

private theorem filter_cons_heading (level : Nat) (text : String) (entries : List Entry) :
    (Entry.heading level text :: entries).filter p = entries.filter p :=
  List.filter_cons_of_neg (by rw [hp _ (.heading level text)]; exact Bool.false_ne_true)

private theorem filter_fieldEntry {depth : Nat} {label : String} {text : Option String}
    (hlabel : label ++ "：" ∈ plainStarts) : (fieldEntry depth label text).filter p = [] :=
  filter_eq_nil_of_isOther hp fun _ => isOther_of_mem_fieldEntry hlabel

private theorem filter_placeEntry {depth : Nat} {place : Option CodeRef} :
    (placeEntry depth place).filter p = [] :=
  filter_eq_nil_of_isOther hp fun _ => isOther_of_mem_placeEntry (by decide)

/-- Of a list in bullets, the one with the count is left. -/
private theorem filter_listEntries (label : String) (texts : List String) :
    (listEntries 0 label texts).filter p =
      [Entry.bullet 0 (counted label texts.length)].filter p := by
  have hitems : (texts.map (Entry.bullet (0 + 1))).filter p = [] := by
    refine filter_eq_nil_of_isOther hp fun entry hentry => ?_
    obtain ⟨text, _, rfl⟩ := List.mem_map.1 hentry
    exact .item text
  rw [listEntries, List.filter_cons, hitems, List.filter_cons, List.filter_nil]

theorem filter_stepEntries (rules : List Rule) (step : Step) :
    (stepEntries rules step).filter p =
      (if outlineRules rules step = [] then []
        else [inlineListEntry 2 "规则" (outlineRules rules step) "、"]).filter p := by
  simp (disch := decide) only [stepEntries, List.filter_cons, hp _ (.item _),
    List.filter_append, filter_fieldEntry hp, filter_placeEntry hp, List.isEmpty_iff,
    List.nil_append, List.append_nil, if_false, Bool.false_eq_true]

theorem filter_flowEntries (rules : List Rule) (flow : Flow) :
    (flowEntries rules flow).filter p = (flow.countedEntries rules).filter p := by
  have hsteps : (flow.orderedSteps.flatMap (stepEntries rules)).filter p =
      ((flow.ruleLists rules).map fun texts => inlineListEntry 2 "规则" texts "、").filter p := by
    rw [Flow.ruleLists, ← flatMap_ite_nil]
    simp only [List.filter_flatMap, filter_stepEntries hp]
  simp (disch := decide) only [flowEntries, Flow.countedEntries, List.filter_cons,
    hp _ (.heading _ _), List.filter_append, filter_fieldEntry hp, filter_placeEntry hp, hsteps,
    List.nil_append, if_false, Bool.false_eq_true]

theorem filter_ruleEntries (rule : Rule) :
    (ruleEntries rule).filter p = rule.countedEntries.filter p := by
  have hpriority : p (.bullet 0 s!"优先级：{rule.priority.label}") = false :=
    hp _ (.labelled 0 "优先级：" rule.priority.label (by decide))
  have himpacts : (if rule.impactedFields.isEmpty then []
      else [inlineListEntry 0 "影响字段" rule.impactedFields "、"]) =
        rule.impactLists.map fun texts => inlineListEntry 0 "影响字段" texts "、" := by
    rw [Rule.impactLists]
    cases rule.impactedFields <;> rfl
  simp (disch := decide) only [ruleEntries, Rule.countedEntries, himpacts, List.filter_cons,
    hp _ (.heading _ _), hpriority, List.filter_append, filter_fieldEntry hp,
    filter_listEntries hp, filter_placeEntry hp, List.length_map, List.filter_nil,
    List.nil_append, List.append_nil, if_false, Bool.false_eq_true]
  split <;> split <;> rfl

theorem filter_stateMachineEntries (machine : StateMachine) :
    (stateMachineEntries machine).filter p = machine.countedEntries.filter p := by
  have hpart : ∀ text description, (Entry.bullet 1 text ::
      fieldEntry 2 "说明" description).filter p = [] := by
    intro text description
    simp (disch := decide) only [List.filter_cons, hp _ (.item _), filter_fieldEntry hp, if_false,
      Bool.false_eq_true]
  have hstates : (machine.states.flatMap fun s =>
      .bullet 1 (stateTitle s) :: fieldEntry 2 "说明" s.description).filter p = [] := by
    simp [List.filter_flatMap, hpart]
  have htransitions : (machine.transitions.flatMap fun t =>
      .bullet 1 (transitionTitle machine t) :: fieldEntry 2 "说明" t.description).filter p = [] := by
    simp [List.filter_flatMap, hpart]
  simp (disch := decide) only [stateMachineEntries, StateMachine.countedEntries, List.filter_cons,
    hp _ (.heading _ _), List.filter_append, filter_fieldEntry hp, hstates, htransitions,
    List.filter_nil, List.nil_append, if_false, Bool.false_eq_true]
  split <;> split <;> rfl

theorem filter_pseudocodeEntries (pseudo : Pseudocode) :
    (pseudocodeEntries pseudo).filter p = pseudo.countedEntries.filter p := by
  have hsignature : ((nonempty? pseudo.signature).toList.map fun s =>
      Entry.bullet 0 s!"签名：{inlineCode s}").filter p = [] := by
    refine filter_eq_nil_of_isOther hp fun entry hentry => ?_
    obtain ⟨s, _, rfl⟩ := List.mem_map.1 hentry
    exact .labelled 0 "签名：" (inlineCode s) (by decide)
  have hsteps : (pseudo.steps.map pseudoStepEntry).filter p = [] := by
    refine filter_eq_nil_of_isOther hp fun entry hentry => ?_
    obtain ⟨s, _, rfl⟩ := List.mem_map.1 hentry
    have htext : s!"【{s.kind.label}】{escapeOutline s.text}" =
        "【" ++ (s.kind.label ++ "】" ++ escapeOutline s.text) := by
      simp [toString, String.append_assoc]
    rw [pseudoStepEntry, htext]
    exact .labelled _ "【" _ (by decide)
  simp (disch := decide) only [pseudocodeEntries, Pseudocode.countedEntries, List.filter_cons,
    hp _ (.heading _ _), List.filter_append, filter_fieldEntry hp, filter_placeEntry hp,
    filter_listEntries hp, hsignature, hsteps, List.length_map, List.filter_nil, List.nil_append,
    List.append_nil, if_false, Bool.false_eq_true]
  split <;> split <;> rfl

/-- The bullets with a count are all that a selection leaves of a module which takes none of the
other entries. -/
theorem filter_moduleEntries (module : Module) :
    (moduleEntries module).filter p = module.countedEntries.filter p := by
  have hflows : (module.flows.flatMap (flowEntries module.rules)).filter p =
      (module.flows.flatMap (Flow.countedEntries module.rules)).filter p := by
    simp only [List.filter_flatMap, filter_flowEntries hp]
  have hrules : (module.rules.flatMap ruleEntries).filter p =
      (module.rules.flatMap Rule.countedEntries).filter p := by
    simp only [List.filter_flatMap, filter_ruleEntries hp]
  have hmachines : (module.stateMachines.flatMap stateMachineEntries).filter p =
      (module.stateMachines.flatMap StateMachine.countedEntries).filter p := by
    simp only [List.filter_flatMap, filter_stateMachineEntries hp]
  have hpseudocodes : (module.pseudocodes.flatMap pseudocodeEntries).filter p =
      (module.pseudocodes.flatMap Pseudocode.countedEntries).filter p := by
    simp only [List.filter_flatMap, filter_pseudocodeEntries hp]
  have hlists : ((inlineListEntry 0 "标签" module.tags "、") ::
      inlineListEntry 0 "依赖" module.dependencies "、" ::
        listEntries 0 "代码" (module.places.map inlineCode)).filter p =
      [inlineListEntry 0 "标签" module.tags "、", inlineListEntry 0 "依赖" module.dependencies "、",
        .bullet 0 (counted "代码" module.places.length)].filter p := by
    rw [List.filter_cons, List.filter_cons, filter_listEntries hp, List.length_map,
      ← List.filter_cons, ← List.filter_cons]
  simp (disch := decide) only [moduleEntries, Module.countedEntries, filter_cons_heading hp,
    List.filter_append, filter_fieldEntry hp, hlists, hflows, hrules, hmachines, hpseudocodes,
    List.nil_append]

theorem filter_entityEntries (entity : Entity) :
    (entityEntries entity).filter p =
      [inlineListEntry 0 "关键字段" entity.keyFields "、",
        inlineListEntry 0 "状态" entity.statuses " / "].filter p := by
  simp (disch := decide) only [entityEntries, filter_cons_heading hp, List.filter_append,
    filter_fieldEntry hp, List.nil_append]

theorem filter_dataModelEntries (model : DataModel) :
    (dataModelEntries model).filter p =
      [Entry.bullet 0 (counted "字段" model.fields.length)].filter p := by
  simp (disch := decide) only [dataModelEntries, filter_cons_heading hp, List.filter_append,
    filter_fieldEntry hp, filter_listEntries hp, List.length_map, List.nil_append]

end

/-! ## What stands under a label -/

/-- The bullets with a label show lists on one line, one for one and in order: each shows how many
texts of its list are not blank, and joins these, each once and in the order of their first
occurrence. -/
def ShowsLists (depth : Nat) (label separator : String) (lists : List (List String))
    (lines : List String) : Prop :=
  List.Forall₂ (fun texts line => ∃ items,
      FirstOccurrences texts (fun text => isBlankText text = false) items ∧
      line = (Entry.bullet depth (inlineText label items separator)).line)
    lists (labelledLines depth label lines)

/-- The bullets with a label show some counts and nothing else, one for one and in order. -/
def ShowsCounts (label : String) (counts : List Nat) (lines : List String) : Prop :=
  labelledLines 0 label lines = counts.map fun n => "- " ++ counted label n

theorem line_bullet_zero (text : String) : (Entry.bullet 0 text).line = "- " ++ text := by
  rw [← String.toList_inj, toList_bullet]
  simp [Lines.maxNesting]

section

variable {depth : Nat} {label separator : String} {entries : List Entry}

theorem showsLists_of_filter {lists : List (List String)}
    (h : entries.filter (Entry.isLabelled depth label) =
      lists.map fun texts => inlineListEntry depth label texts separator) :
    ShowsLists depth label separator lists (entries.map Entry.line) := by
  rw [ShowsLists, labelledLines_lines, h, List.map_map, List.forall₂_map_right_iff,
    List.forall₂_same]
  intro texts _
  refine ⟨distinctVisible texts, firstOccurrences_distinctVisible texts, ?_⟩
  rw [Function.comp_apply, inlineListEntry_eq]

theorem showsCounts_of_filter {counts : List Nat}
    (h : entries.filter (Entry.isLabelled 0 label) =
      counts.map fun n => .bullet 0 (counted label n)) :
    ShowsCounts label counts (entries.map Entry.line) := by
  rw [ShowsCounts, labelledLines_lines, h, List.map_map]
  exact List.map_congr_left fun n _ => line_bullet_zero _

theorem isLabelled_of_start (rest : String) :
    (Entry.bullet depth (label ++ "（" ++ rest)).isLabelled depth label = true := by
  rw [Entry.isLabelled, decide_eq_true_eq, List.isPrefixOf_iff_prefix,
    String.toList_append (s := label ++ "（")]
  exact ⟨rfl, List.prefix_append _ _⟩

theorem isLabelled_of_apart {other : String} (h : IsApart label [other ++ "（"]) (d : Nat)
    (rest : String) : (Entry.bullet d (other ++ "（" ++ rest)).isLabelled depth label = false := by
  simpa [Entry.isLabelled] using fun _ => h.not_starts List.mem_cons_self rest

theorem isLabelled_inlineListEntry (texts : List String) :
    (inlineListEntry depth label texts separator).isLabelled depth label = true := by
  obtain ⟨rest, hrest⟩ := inlineText_eq label (distinctVisible texts) separator
  rw [inlineListEntry_eq, hrest, isLabelled_of_start]

theorem isLabelled_inlineListEntry_of_apart {other : String} (h : IsApart label [other ++ "（"])
    (d : Nat) (texts : List String) :
    (inlineListEntry d other texts separator).isLabelled depth label = false := by
  obtain ⟨rest, hrest⟩ := inlineText_eq other (distinctVisible texts) separator
  rw [inlineListEntry_eq, hrest, isLabelled_of_apart h]

theorem isLabelled_counted (n : Nat) :
    (Entry.bullet depth (counted label n)).isLabelled depth label = true := by
  rw [counted_eq, isLabelled_of_start]

theorem isLabelled_counted_of_apart {other : String} (h : IsApart label [other ++ "（"])
    (d n : Nat) :
    (Entry.bullet d (counted other n)).isLabelled depth label = false := by
  rw [counted_eq, isLabelled_of_apart h]

end

/-! ## Modules -/

/-- The lists of rules at the steps of a module that have any. -/
def Module.ruleLists (module : Module) : List (List String) :=
  module.flows.flatMap (Flow.ruleLists module.rules)

/-- The lists of the fields that the rules of a module have an impact on. -/
def Module.impactLists (module : Module) : List (List String) :=
  module.rules.flatMap Rule.impactLists

theorem length_orderedSteps (flow : Flow) : flow.orderedSteps.length = flow.steps.length :=
  flow.orderedSteps_perm.length_eq

private theorem flatMap_nil_right {α β : Type} (l : List α) :
    (l.flatMap fun _ => ([] : List β)) = [] :=
  List.flatMap_eq_nil_iff.2 fun _ _ => rfl

section

variable (module : Module)

attribute [local simp] Module.countedEntries Flow.countedEntries Rule.countedEntries
  StateMachine.countedEntries Pseudocode.countedEntries List.filter_cons List.filter_flatMap
  List.filter_map Function.comp_def isLabelled_inlineListEntry isLabelled_inlineListEntry_of_apart
  isLabelled_counted isLabelled_counted_of_apart flatMap_nil_right

theorem filter_tags : module.countedEntries.filter (Entry.isLabelled 0 "标签") =
    [module.tags].map fun texts => inlineListEntry 0 "标签" texts "、" := by
  simp (disch := decide)

theorem filter_dependencies : module.countedEntries.filter (Entry.isLabelled 0 "依赖") =
    [module.dependencies].map fun texts => inlineListEntry 0 "依赖" texts "、" := by
  simp (disch := decide)

theorem filter_ruleLists : module.countedEntries.filter (Entry.isLabelled 2 "规则") =
    module.ruleLists.map fun texts => inlineListEntry 2 "规则" texts "、" := by
  simp (disch := decide) [Module.ruleLists, List.map_flatMap]

theorem filter_impactLists : module.countedEntries.filter (Entry.isLabelled 0 "影响字段") =
    module.impactLists.map fun texts => inlineListEntry 0 "影响字段" texts "、" := by
  simp (disch := decide) [Module.impactLists, List.map_flatMap]

theorem filter_places : module.countedEntries.filter (Entry.isLabelled 0 "代码") =
    ([module.places.length]).map
      fun n => .bullet 0 (counted "代码" n) := by
  simp (disch := decide)

theorem filter_constraints : module.countedEntries.filter (Entry.isLabelled 0 "约束") =
    (module.rules.map fun rule => (distinctVisible rule.constraints).length).map
      fun n => .bullet 0 (counted "约束" n) := by
  simp (disch := decide) [← List.map_eq_flatMap]

theorem filter_effects : module.countedEntries.filter (Entry.isLabelled 0 "效果") =
    (module.rules.map fun rule => (distinctVisible rule.effects).length).map
      fun n => .bullet 0 (counted "效果" n) := by
  simp (disch := decide) [← List.map_eq_flatMap]

theorem filter_states : module.countedEntries.filter (Entry.isLabelled 0 "状态") =
    (module.stateMachines.map fun machine => machine.states.length).map
      fun n => .bullet 0 (counted "状态" n) := by
  simp (disch := decide) [← List.map_eq_flatMap]

theorem filter_transitions : module.countedEntries.filter (Entry.isLabelled 0 "转换") =
    (module.stateMachines.map fun machine => machine.transitions.length).map
      fun n => .bullet 0 (counted "转换" n) := by
  simp (disch := decide) [← List.map_eq_flatMap]

theorem filter_params : module.countedEntries.filter (Entry.isLabelled 0 "参数") =
    (module.pseudocodes.map fun pseudo => pseudo.params.length).map
      fun n => .bullet 0 (counted "参数" n) := by
  simp (disch := decide) [← List.map_eq_flatMap]

theorem filter_calls : module.countedEntries.filter (Entry.isLabelled 0 "外部调用") =
    (module.pseudocodes.map fun pseudo => pseudo.calls.length).map
      fun n => .bullet 0 (counted "外部调用" n) := by
  simp (disch := decide) [← List.map_eq_flatMap]

theorem filter_steps : module.countedEntries.filter (Entry.isLabelled 0 "步骤") =
    (module.flows.map (fun flow => flow.steps.length) ++
      module.pseudocodes.map fun pseudo => pseudo.steps.length).map
      fun n => .bullet 0 (counted "步骤" n) := by
  simp (disch := decide) [← List.map_eq_flatMap, length_orderedSteps]

end

/-- The lists on one line in the outlines of some modules: the tags and the dependencies of each,
the rules at the steps of its flows, and the fields that its rules have an impact on. -/
structure ShowsModuleLists (modules : List Module) (lines : List String) : Prop where
  tags : ShowsLists 0 "标签" "、" (modules.map (·.tags)) lines
  dependencies : ShowsLists 0 "依赖" "、" (modules.map (·.dependencies)) lines
  rules : ShowsLists 2 "规则" "、" (modules.flatMap Module.ruleLists) lines
  impacts : ShowsLists 0 "影响字段" "、" (modules.flatMap Module.impactLists) lines

/-- The counts of the lists in bullets in the outlines of some modules. -/
structure ShowsModuleCounts (modules : List Module) (lines : List String) : Prop where
  code : ShowsCounts "代码" (modules.map fun module => module.places.length) lines
  constraints : ShowsCounts "约束" (modules.flatMap fun module =>
    module.rules.map fun rule => (distinctVisible rule.constraints).length) lines
  effects : ShowsCounts "效果" (modules.flatMap fun module =>
    module.rules.map fun rule => (distinctVisible rule.effects).length) lines
  states : ShowsCounts "状态" (modules.flatMap fun module =>
    module.stateMachines.map fun machine => machine.states.length) lines
  transitions : ShowsCounts "转换" (modules.flatMap fun module =>
    module.stateMachines.map fun machine => machine.transitions.length) lines
  params : ShowsCounts "参数" (modules.flatMap fun module =>
    module.pseudocodes.map fun pseudo => pseudo.params.length) lines
  calls : ShowsCounts "外部调用" (modules.flatMap fun module =>
    module.pseudocodes.map fun pseudo => pseudo.calls.length) lines
  steps : ShowsCounts "步骤" (modules.flatMap fun module =>
    module.flows.map (fun flow => flow.steps.length) ++
      module.pseudocodes.map fun pseudo => pseudo.steps.length) lines

/-- What a selection by a label leaves of the outlines of some modules, from what it leaves of the
bullets with a count in each. -/
private theorem filter_flatMap_moduleEntries {α : Type} {depth : Nat} {label : String}
    {shown : Module → List α} {entry : α → Entry} (hdepth : depth ≠ 1)
    (hlabel : IsApart label plainStarts)
    (h : ∀ module : Module, module.countedEntries.filter (Entry.isLabelled depth label) =
      (shown module).map entry) (modules : List Module) :
    (modules.flatMap moduleEntries).filter (Entry.isLabelled depth label) =
      (modules.flatMap shown).map entry := by
  rw [List.filter_flatMap, List.map_flatMap]
  refine List.flatMap_congr fun module _ => ?_
  rw [filter_moduleEntries fun _ hentry => hentry.isLabelled_eq_false hdepth hlabel, h]

/-- The lists on one line in the outlines of some modules, from those in each. -/
private theorem showsLists_of_countedEntries {depth : Nat} {label : String}
    {lists : Module → List (List String)} (hdepth : depth ≠ 1) (hlabel : IsApart label plainStarts)
    (h : ∀ module : Module, module.countedEntries.filter (Entry.isLabelled depth label) =
      (lists module).map fun texts => inlineListEntry depth label texts "、")
    (modules : List Module) :
    ShowsLists depth label "、" (modules.flatMap lists)
      ((modules.flatMap moduleEntries).map Entry.line) :=
  showsLists_of_filter (filter_flatMap_moduleEntries hdepth hlabel h modules)

/-- The counts in the outlines of some modules, from those in each. -/
private theorem showsCounts_of_countedEntries {label : String} {counts : Module → List Nat}
    (hlabel : IsApart label plainStarts)
    (h : ∀ module : Module, module.countedEntries.filter (Entry.isLabelled 0 label) =
      (counts module).map fun n => .bullet 0 (counted label n)) (modules : List Module) :
    ShowsCounts label (modules.flatMap counts) ((modules.flatMap moduleEntries).map Entry.line) :=
  showsCounts_of_filter (filter_flatMap_moduleEntries (by decide) hlabel h modules)

theorem showsModuleLists (modules : List Module) :
    ShowsModuleLists modules ((modules.flatMap moduleEntries).map Entry.line) where
  tags := by
    rw [List.map_eq_flatMap]
    exact showsLists_of_countedEntries (by decide) (by decide) filter_tags modules
  dependencies := by
    rw [List.map_eq_flatMap]
    exact showsLists_of_countedEntries (by decide) (by decide) filter_dependencies modules
  rules := showsLists_of_countedEntries (by decide) (by decide) filter_ruleLists modules
  impacts := showsLists_of_countedEntries (by decide) (by decide) filter_impactLists modules

theorem showsModuleCounts (modules : List Module) :
    ShowsModuleCounts modules ((modules.flatMap moduleEntries).map Entry.line) where
  code := by
    rw [List.map_eq_flatMap]
    exact showsCounts_of_countedEntries (by decide) filter_places modules
  constraints := showsCounts_of_countedEntries (by decide) filter_constraints modules
  effects := showsCounts_of_countedEntries (by decide) filter_effects modules
  states := showsCounts_of_countedEntries (by decide) filter_states modules
  transitions := showsCounts_of_countedEntries (by decide) filter_transitions modules
  params := showsCounts_of_countedEntries (by decide) filter_params modules
  calls := showsCounts_of_countedEntries (by decide) filter_calls modules
  steps := showsCounts_of_countedEntries (by decide) filter_steps modules

/-! ## Entities and data models -/

/-- The lists on one line in the outlines of some entities: the key fields and the statuses of
each. -/
structure ShowsEntityLists (entities : List Entity) (lines : List String) : Prop where
  keyFields : ShowsLists 0 "关键字段" "、" (entities.map (·.keyFields)) lines
  statuses : ShowsLists 0 "状态" " / " (entities.map (·.statuses)) lines

private theorem isLabelled_eq_false_of_isOther {label : String} (hlabel : IsApart label plainStarts)
    (entry : Entry) (h : IsOther plainStarts entry) : entry.isLabelled 0 label = false :=
  h.isLabelled_eq_false (by decide) hlabel

theorem showsEntityLists (entities : List Entity) :
    ShowsEntityLists entities ((entities.flatMap entityEntries).map Entry.line) where
  keyFields := by
    refine showsLists_of_filter ?_
    rw [List.filter_flatMap, List.map_map, List.map_eq_flatMap]
    refine List.flatMap_congr fun entity _ => ?_
    rw [filter_entityEntries (isLabelled_eq_false_of_isOther (by decide))]
    simp (disch := decide) [List.filter_cons, isLabelled_inlineListEntry,
      isLabelled_inlineListEntry_of_apart]
  statuses := by
    refine showsLists_of_filter ?_
    rw [List.filter_flatMap, List.map_map, List.map_eq_flatMap]
    refine List.flatMap_congr fun entity _ => ?_
    rw [filter_entityEntries (isLabelled_eq_false_of_isOther (by decide))]
    simp (disch := decide) [List.filter_cons, isLabelled_inlineListEntry,
      isLabelled_inlineListEntry_of_apart]

/-- The outlines of some data models show how many fields each has. -/
theorem showsFieldCounts (models : List DataModel) :
    ShowsCounts "字段" (models.map fun model => model.fields.length)
      ((models.flatMap dataModelEntries).map Entry.line) := by
  refine showsCounts_of_filter ?_
  rw [List.filter_flatMap, List.map_map, List.map_eq_flatMap]
  refine List.flatMap_congr fun model _ => ?_
  rw [filter_dataModelEntries (isLabelled_eq_false_of_isOther (by decide))]
  simp [isLabelled_counted]

end ManifestAtlas
