import Mathlib
import ManifestAtlas.Proofs.OutlineScopes
import ManifestAtlas.Proofs.ShownLists

/-!
# Lists that a bullet announces

A bullet that reads `label（n）` announces a list: its items are the bullets
under it.  `Announces` says that there are `n` of them.

The bullets of a section are gone through part by part (`ListPart`).  A bullet
that announces a list has its items behind it, each with one bullet one level
deeper and details below that (`listPart_items`); any other bullet does not read
like an announcement (`IsQuiet`).  So every announcement in the outline of a
module, an entity or a data model is true (`listPart_flowEntries` and the
lemmas after it).
-/

namespace ManifestAtlas

/-! ## Announcements -/

/-- Whether a line is a bullet at least one level deep. -/
def isNestedBullet (line : String) : Bool :=
  match lineKind? line with
  | some (.bullet depth) => 1 ≤ depth
  | _ => false

/-- A bullet that reads `label（n）` has `n` items under it: bullets one level deep for labels of
the first list, and bullets at any level below for labels of the second. -/
structure Announces (flat nested : List String) (line : String) (body : List String) : Prop where
  flat : ∀ label ∈ flat, ∀ n, line = "- " ++ counted label n → countKind (.bullet 1) body = n
  nested : ∀ label ∈ nested, ∀ n, line = "- " ++ counted label n → body.countP isNestedBullet = n

/-- An entry that does not read like a label of the list with a count. -/
def IsQuiet (labels : List String) (entry : Entry) : Prop :=
  ∀ label ∈ labels, ∀ n, entry.line ≠ "- " ++ counted label n

/-- Labels with counts are the same just if the labels and the counts are. -/
theorem counted_inj {label other : String} (hlabel : '（' ∉ label.toList) {n k : Nat} :
    counted label n = counted other k ↔ label = other ∧ n = k := by
  constructor
  · intro h
    have hdigits : '（' ∉ (Nat.toDigits 10 n ++ ['）'] : List Char) := by
      intro hmem
      rcases List.mem_append.1 hmem with hmem | hmem
      · exact absurd (Nat.isDigit_of_mem_toDigits (by decide) (by decide) hmem) (by decide)
      · exact absurd hmem (by decide)
    have hchars : ∀ (l : String) (m : Nat),
        (counted l m).toList = l.toList ++ '（' :: (Nat.toDigits 10 m ++ ['）']) := by
      intro l m
      rw [counted_eq]
      simp
    have hboth := congrArg String.toList h
    rw [hchars, hchars, List.append_cons_inj_of_notMem hlabel hdigits] at hboth
    refine ⟨String.toList_inj.1 hboth.1, Nat.repr_inj.1 (String.toList_inj.1 ?_)⟩
    rw [Nat.toList_repr, Nat.toList_repr]
    exact List.append_cancel_right hboth.2.2
  · rintro ⟨rfl, rfl⟩
    rfl

section

variable {flat nested labels : List String} {entry : Entry} {entries : List Entry}

theorem isQuiet_of_kind (h : entry.kind ≠ .bullet 0) : IsQuiet labels entry := by
  intro label _ n hline
  have hkind := congrArg lineKind? hline
  rw [← line_bullet_zero, lineKind?_line, lineKind?_line] at hkind
  exact h (Option.some.inj hkind)

theorem isQuiet_of_apart {start : String} (h : ∀ label ∈ labels, IsApart label [start])
    (rest : String) : IsQuiet labels (.bullet 0 (start ++ rest)) := by
  intro label hlabel n hline
  rw [line_bullet_zero, counted_eq, String.append_right_inj] at hline
  refine (h label hlabel).not_starts List.mem_cons_self rest ?_
  rw [hline, String.toList_append (s := label ++ "（")]
  exact List.prefix_append _ _

theorem IsQuiet.announces (h : IsQuiet (flat ++ nested) entry) (body : List String) :
    Announces flat nested entry.line body where
  flat label hlabel n hline := absurd hline (h label (List.mem_append_left _ hlabel) n)
  nested label hlabel n hline := absurd hline (h label (List.mem_append_right _ hlabel) n)

theorem announces_flat {label : String} {n : Nat} {body : List String} (hlabel : '（' ∉ label.toList)
    (hflat : label ∉ nested) (hcount : countKind (.bullet 1) body = n) :
    Announces flat nested (Entry.bullet 0 (counted label n)).line body where
  flat other _ k hline := by
    rw [line_bullet_zero, String.append_right_inj, counted_inj hlabel] at hline
    rw [hcount, hline.2]
  nested other hother k hline := by
    rw [line_bullet_zero, String.append_right_inj, counted_inj hlabel] at hline
    exact absurd (hline.1 ▸ hother) hflat

theorem announces_nested {label : String} {n : Nat} {body : List String}
    (hlabel : '（' ∉ label.toList) (hnested : label ∉ flat)
    (hcount : body.countP isNestedBullet = n) :
    Announces flat nested (Entry.bullet 0 (counted label n)).line body where
  flat other hother k hline := by
    rw [line_bullet_zero, String.append_right_inj, counted_inj hlabel] at hline
    exact absurd (hline.1 ▸ hother) hnested
  nested other _ k hline := by
    rw [line_bullet_zero, String.append_right_inj, counted_inj hlabel] at hline
    rw [hcount, hline.2]

/-! ## Parts of a section -/

/-- Entries in which each bullet announces its items truly. -/
abbrev ListPart (flat nested : List String) (entries : List Entry) : Prop :=
  IsPart Entry.rank 7 (fun entry body => Announces flat nested entry.line (body.map Entry.line))
    entries

theorem announces_of_rank (h : 7 < entry.rank) (body : List String) :
    Announces flat nested entry.line body := by
  refine IsQuiet.announces (isQuiet_of_kind fun hkind => ?_) body
  rw [Entry.rank, hkind] at h
  exact absurd h (by decide)

theorem listPart_heading (level : Nat) (text : String) (h : ListPart flat nested entries) :
    ListPart flat nested (.heading level text :: entries) := by
  refine h.cons ?_ fun body => IsQuiet.announces (isQuiet_of_kind (by simp)) _
  rw [rank_heading, maxHeadingLevel]
  omega

/-- A labelled bullet without a count in brackets. -/
theorem listPart_labelled (start rest : String)
    (hstart : ∀ label ∈ flat ++ nested, IsApart label [start]) :
    ListPart flat nested [.bullet 0 (start ++ rest)] :=
  .single (by simp) (IsQuiet.announces (isQuiet_of_apart hstart rest) _)

theorem listPart_fieldEntry {label : String}
    (hlabel : ∀ other ∈ flat ++ nested, IsApart other [label ++ "："]) (text : Option String) :
    ListPart flat nested (fieldEntry 0 label text) := by
  rw [fieldEntry]
  cases visible? text with
  | none => exact .nil
  | some shown => exact listPart_labelled _ (escapeOutline shown) hlabel

theorem listPart_placeEntry (hlabel : ∀ other ∈ flat ++ nested, IsApart other ["代码位置："])
    (place : Option CodeRef) : ListPart flat nested (placeEntry 0 place) := by
  simp only [placeEntry]
  split
  · exact .nil
  · exact listPart_labelled _ (inlineCode (displayPlace place)) hlabel

theorem listPart_inlineListEntry {label : String}
    (hlabel : ∀ other ∈ flat ++ nested, IsApart other [label ++ "（"]) (texts : List String)
    (separator : String) : ListPart flat nested [inlineListEntry 0 label texts separator] := by
  obtain ⟨rest, hrest⟩ := inlineText_eq label (distinctVisible texts) separator
  rw [inlineListEntry_eq, hrest]
  exact listPart_labelled _ rest hlabel

/-- A bullet that announces as many items as there are: each has one bullet one level deeper, and
nothing above that. -/
theorem listPart_items {α : Type} {label : String} (hlabel : '（' ∉ label.toList)
    (hflat : label ∉ nested) {item : α → List Entry}
    (hbelow : ∀ a, ∀ kind ∈ (item a).map Entry.kind, 7 < kind.rank)
    (hone : ∀ a, ((item a).map Entry.kind).count (.bullet 1) = 1) (items : List α) :
    ListPart flat nested (.bullet 0 (counted label items.length) :: items.flatMap item) := by
  have hlow : ∀ entry ∈ items.flatMap item, 7 < entry.rank := by
    intro entry hentry
    obtain ⟨a, _, hentry⟩ := List.mem_flatMap.1 hentry
    exact hbelow a entry.kind (List.mem_map_of_mem hentry)
  refine .announce (by simp) hlow (announces_flat hlabel hflat ?_)
    fun entry hentry _ => announces_of_rank (hlow entry hentry) _
  rw [countKind_lines, List.map_flatMap, List.count_flatMap]
  simp [Function.comp_def, hone]

theorem listPart_listEntries {label : String} (hlabel : '（' ∉ label.toList)
    (hflat : label ∉ nested) (texts : List String) :
    ListPart flat nested (listEntries 0 label texts) := by
  rw [listEntries, List.map_eq_flatMap]
  refine listPart_items hlabel hflat ?_ ?_ texts
  · intro text
    simp [LineKind.rank, Lines.maxNesting]
  · intro text
    simp [Lines.maxNesting]

end

/-! ## The sections -/

/-- The labels that announce a list in a rule, a state machine or an operation in pseudocode. -/
def partLabels : List String :=
  ["约束", "效果", "状态", "转换", "参数", "外部调用"]

theorem listPart_flowEntries (rules : List Rule) (flow : Flow) :
    ListPart ("步骤" :: partLabels) [] (flowEntries rules flow) := by
  have hkinds : ∀ step : Step, (∀ kind ∈ step.shape.kinds, 7 < kind.rank) ∧
      step.shape.kinds.count (.bullet 1) = 1 := by
    intro step
    obtain ⟨described, ruled, placed⟩ := step.shape
    cases described <;> cases ruled <;> cases placed <;> decide
  have hsteps : ListPart ("步骤" :: partLabels) []
      (.bullet 0 (counted "步骤" flow.orderedSteps.length) ::
        flow.orderedSteps.flatMap (stepEntries rules)) := by
    refine listPart_items (by decide) (by decide) ?_ ?_ _
    · intro step
      rw [kinds_stepEntries]
      exact (hkinds step).1
    · intro step
      rw [kinds_stepEntries]
      exact (hkinds step).2
  exact listPart_heading 5 _ ((((listPart_fieldEntry (by decide) _).append
    (listPart_fieldEntry (by decide) _)).append (listPart_placeEntry (by decide) _)).append hsteps)

theorem listPart_ruleEntries (rule : Rule) :
    ListPart ("步骤" :: partLabels) [] (ruleEntries rule) := by
  have hpriority : ListPart ("步骤" :: partLabels) []
      [.bullet 0 s!"优先级：{rule.priority.label}"] :=
    listPart_labelled "优先级：" rule.priority.label (by decide)
  have hlists : ListPart ("步骤" :: partLabels) []
      (fieldEntry 0 "分类" rule.category ++ fieldEntry 0 "描述" rule.description ++
        listEntries 0 "约束" ((distinctVisible rule.constraints).map escapeOutline) ++
        listEntries 0 "效果" ((distinctVisible rule.effects).map escapeOutline)) :=
    (((listPart_fieldEntry (by decide) _).append (listPart_fieldEntry (by decide) _)).append
      (listPart_listEntries (by decide) (by decide) _)).append
      (listPart_listEntries (by decide) (by decide) _)
  have himpacts : ListPart ("步骤" :: partLabels) []
      (if rule.impactedFields.isEmpty then []
        else [inlineListEntry 0 "影响字段" rule.impactedFields "、"]) := by
    split
    · exact .nil
    · exact listPart_inlineListEntry (by decide) _ _
  exact listPart_heading 5 _ (hpriority.append
    ((hlists.append himpacts).append (listPart_placeEntry (by decide) _)))

theorem listPart_stateMachineEntries (machine : StateMachine) :
    ListPart ("步骤" :: partLabels) [] (stateMachineEntries machine) := by
  have hpart : ∀ text description, (∀ kind ∈ (Entry.bullet 1 text ::
        fieldEntry 2 "说明" description).map Entry.kind, 7 < kind.rank) ∧
      ((Entry.bullet 1 text :: fieldEntry 2 "说明" description).map Entry.kind).count
        (.bullet 1) = 1 := by
    intro text description
    simp only [List.map_cons, kind_bullet, kinds_fieldEntry]
    cases isVisible description <;> decide
  have hstates : ListPart ("步骤" :: partLabels) []
      (.bullet 0 (counted "状态" machine.states.length) :: machine.states.flatMap fun s =>
        .bullet 1 (stateTitle s) :: fieldEntry 2 "说明" s.description) :=
    listPart_items (by decide) (by decide) (fun s => (hpart (stateTitle s) s.description).1)
      (fun s => (hpart (stateTitle s) s.description).2) machine.states
  have htransitions : ListPart ("步骤" :: partLabels) []
      (.bullet 0 (counted "转换" machine.transitions.length) :: machine.transitions.flatMap fun t =>
        .bullet 1 (transitionTitle machine t) :: fieldEntry 2 "说明" t.description) :=
    listPart_items (by decide) (by decide)
      (fun t => (hpart (transitionTitle machine t) t.description).1)
      (fun t => (hpart (transitionTitle machine t) t.description).2) machine.transitions
  exact listPart_heading 5 _ ((((listPart_fieldEntry (by decide) _).append
    (listPart_fieldEntry (by decide) _)).append hstates).append htransitions)

/-- The steps of an operation may be nested, so their bullets are counted at all levels. -/
theorem listPart_pseudocodeEntries (pseudo : Pseudocode) :
    ListPart partLabels ["步骤"] (pseudocodeEntries pseudo) := by
  have hsignature : ListPart partLabels ["步骤"] ((nonempty? pseudo.signature).toList.map fun s =>
      .bullet 0 s!"签名：{inlineCode s}") := by
    cases nonempty? pseudo.signature with
    | none => exact .nil
    | some signature => exact listPart_labelled "签名：" (inlineCode signature) (by decide)
  have hbelow : ∀ entry ∈ pseudo.steps.map pseudoStepEntry,
      7 < entry.rank ∧ isNestedBullet entry.line = true := by
    intro entry hentry
    obtain ⟨step, _, rfl⟩ := List.mem_map.1 hentry
    have hdepth : 1 ≤ min (step.indent.toNat + 1) Lines.maxNesting := by
      rw [Lines.maxNesting]
      omega
    rw [isNestedBullet, lineKind?_line]
    exact ⟨Nat.lt_add_of_pos_right hdepth, decide_eq_true hdepth⟩
  have hsteps : ListPart partLabels ["步骤"]
      (.bullet 0 (counted "步骤" pseudo.steps.length) :: pseudo.steps.map pseudoStepEntry) := by
    refine .announce (by simp) (fun entry hentry => (hbelow entry hentry).1)
      (announces_nested (by decide) (by decide) ?_)
      fun entry hentry _ => announces_of_rank (hbelow entry hentry).1 _
    have hall : (pseudo.steps.map pseudoStepEntry).countP (isNestedBullet ∘ Entry.line) =
        (pseudo.steps.map pseudoStepEntry).length :=
      List.countP_eq_length.2 fun entry hentry => (hbelow entry hentry).2
    rw [List.countP_map, hall, List.length_map]
  have hfront : ListPart partLabels ["步骤"] (fieldEntry 0 "描述" pseudo.description ++
      (nonempty? pseudo.signature).toList.map (fun s => .bullet 0 s!"签名：{inlineCode s}") ++
      listEntries 0 "参数" (pseudo.params.map paramTitle) ++ fieldEntry 0 "返回" pseudo.returns ++
      placeEntry 0 pseudo.codeRef) :=
    ((((listPart_fieldEntry (by decide) _).append hsignature).append
      (listPart_listEntries (by decide) (by decide) _)).append
      (listPart_fieldEntry (by decide) _)).append (listPart_placeEntry (by decide) _)
  exact listPart_heading 5 _ ((hfront.append hsteps).append
    (listPart_listEntries (by decide) (by decide) _))

/-- The bullets of a module that stand in front of its first part. -/
def moduleBullets (module : Module) : List Entry :=
  fieldEntry 0 "描述" (some module.description) ++
  [inlineListEntry 0 "标签" module.tags "、", inlineListEntry 0 "依赖" module.dependencies "、"] ++
  listEntries 0 "代码" (module.places.map inlineCode)

/-- The labels that announce a list of a module or a data model as a whole. -/
def sectionLabels : List String :=
  ["代码", "字段"]

theorem listPart_moduleBullets (module : Module) :
    ListPart sectionLabels [] (moduleBullets module) := by
  have hinline : ListPart sectionLabels [] [inlineListEntry 0 "标签" module.tags "、",
      inlineListEntry 0 "依赖" module.dependencies "、"] :=
    (listPart_inlineListEntry (by decide) _ _).append (listPart_inlineListEntry (by decide) _ _)
  exact ((listPart_fieldEntry (by decide) _).append hinline).append
    (listPart_listEntries (by decide) (by decide) _)

theorem listPart_entityBullets (entity : Entity) :
    ListPart sectionLabels [] (fieldEntry 0 "描述" entity.description ++
      [inlineListEntry 0 "关键字段" entity.keyFields "、",
        inlineListEntry 0 "状态" entity.statuses " / "]) :=
  (listPart_fieldEntry (by decide) _).append
    ((listPart_inlineListEntry (by decide) _ _).append (listPart_inlineListEntry (by decide) _ _))

theorem listPart_dataModelBullets (model : DataModel) :
    ListPart sectionLabels [] (fieldEntry 0 "描述" model.description ++
      listEntries 0 "字段" (model.fields.map columnTitle)) :=
  (listPart_fieldEntry (by decide) _).append (listPart_listEntries (by decide) (by decide) _)

end ManifestAtlas
