import Mathlib
import ManifestAtlas.Proofs.AnnouncedLists

/-!
# The counts in an outline

An outline announces every collection with a count.  The counts stand in front
of the entries and are computed on their own, from the length of a list here and
from the length of a list without repeats there.  `outline_counts` shows that
each of them is the number of entries that follow.

The headings of one level are gone through part by part (`HeadingPart`): where a
heading announces a collection, the headings of the next level under it are
counted by their levels alone, and everything else holds no heading of the
level.
-/

namespace ManifestAtlas

/-! ## Headings -/

/-- Something is said of a line that is a heading of a level, and of the lines under it. -/
def AboutHeading (level : Nat) (Q : String → List String → Prop) (line : String)
    (body : List String) : Prop :=
  lineKind? line = some (.heading level) → Q line body

/-- Entries in which something is said of each heading of a level. -/
abbrev HeadingPart (level r : Nat) (Q : String → List String → Prop) (entries : List Entry) :
    Prop :=
  IsPart Entry.rank r (fun entry body => AboutHeading level Q entry.line (body.map Entry.line))
    entries

theorem count_heading (kinds : List LineKind) (level : Nat) :
    kinds.count (.heading level) = (levels kinds).count level := by
  induction kinds with
  | nil => rfl
  | cons kind kinds ih =>
    cases kind with
    | heading l => rw [List.count_cons, levels_heading, List.count_cons, ih]; simp
    | bullet depth => rw [List.count_cons_of_ne (by simp), levels_bullet, ih]

theorem countKind_heading (level : Nat) (entries : List Entry) :
    countKind (.heading level) (entries.map Entry.line) =
      (levels (entries.map Entry.kind)).count level := by
  rw [countKind_lines, count_heading]

/-- Sections with one heading each have as many headings. -/
theorem levels_flatMap_entries {α : Type} {f : α → List Entry} {level : Nat}
    (h : ∀ a, levels ((f a).map Entry.kind) = [level]) (items : List α) :
    levels ((items.flatMap f).map Entry.kind) = List.replicate items.length level := by
  rw [List.map_flatMap, levels_flatMap_single h, plainSections]
  simp

section

variable {level r : Nat} {Q : String → List String → Prop} {entries : List Entry}

theorem mem_levels_of_kind {entry : Entry} (hentry : entry ∈ entries)
    (h : entry.kind = .heading level) : level ∈ levels (entries.map Entry.kind) :=
  List.mem_filterMap.2 ⟨entry.kind, List.mem_map_of_mem hentry, by rw [h]; rfl⟩

/-- Bullets are below all headings, so the levels of the headings are enough to know. -/
theorem lt_rank_of_levels (hr : r < 7) (h : ∀ l ∈ levels (entries.map Entry.kind), r < l) :
    ∀ entry ∈ entries, r < entry.rank := by
  intro entry hentry
  rw [Entry.rank]
  cases hkind : entry.kind with
  | heading l => exact h l (mem_levels_of_kind hentry hkind)
  | bullet depth => exact hr.trans_le (Nat.le_add_right 7 depth)

theorem aboutHeading_of_kind {entry : Entry} (h : entry.kind ≠ .heading level)
    (body : List String) : AboutHeading level Q entry.line body := by
  intro hkind
  rw [lineKind?_line] at hkind
  exact absurd (Option.some.inj hkind) h

/-- Nothing is said of entries without a heading of the level. -/
theorem headingPart_of_levels (hstarts : ∀ entry ∈ entries.head?, entry.rank ≤ r)
    (h : level ∉ levels (entries.map Entry.kind)) : HeadingPart level r Q entries :=
  .of_forall hstarts fun _ hentry _ =>
    aboutHeading_of_kind (fun hkind => h (mem_levels_of_kind hentry hkind)) _

theorem HeadingPart.cons_heading {l : Nat} (h : HeadingPart level r Q entries) (text : String)
    (hl : (Entry.heading l text).rank ≤ r)
    (hne : (Entry.heading l text).kind ≠ .heading level) :
    HeadingPart level r Q (.heading l text :: entries) :=
  IsPart.cons h hl fun _ => aboutHeading_of_kind hne _

/-- A heading of the level, and under it nothing but entries of lower ranks. -/
theorem headingPart_heading {l : Nat} {text : String}
    (hl : (Entry.heading l text).rank ≤ r) (hr : level ≤ r)
    (hbelow : ∀ entry ∈ entries, r < entry.rank)
    (h : Q (headingLine l text) (entries.map Entry.line)) :
    HeadingPart level r Q (.heading l text :: entries) := by
  refine .announce hl hbelow (fun _ => h) fun entry hentry body =>
    aboutHeading_of_kind (fun hkind => ?_) _
  have hlow := hbelow entry hentry
  rw [Entry.rank, hkind, LineKind.rank] at hlow
  omega

end

/-! ## What the headings announce -/

/-- The labels in a part of a module that announce bullets one level deeper. -/
def flatLabels (part : String) : List String :=
  if part = "伪代码" then partLabels else "步骤" :: partLabels

/-- The labels in a part of a module that announce bullets at any level below: those of the steps
of pseudocode, which may be nested. -/
def nestedLabels (part : String) : List String :=
  if part = "伪代码" then ["步骤"] else []

/-- The bullets with a count under the heading of a chapter show the lists of the manifest and the
numbers of items in them. -/
structure ShowsChapter (manifest : Manifest) (label : String) (body : List String) : Prop where
  modules : label = "模块" →
    ShowsModuleLists manifest.modules body ∧ ShowsModuleCounts manifest.modules body
  entities : label = "实体" → ShowsEntityLists manifest.entities body
  dataModels : label = "数据模型" →
    ShowsCounts "字段" (manifest.dataModels.map fun model => model.fields.length) body

/-- A heading of the second level announces the entries of its chapter: sections, or bullets in the
glossary and in the changelog.  The bullets with a count show what is in the manifest. -/
def AnnouncesChapter (manifest : Manifest) (line : String) (body : List String) : Prop :=
  ∃ label n, line = "## " ++ counted label n ∧
    (label ∈ ["模块", "实体", "数据模型"] ∧ countKind (.heading 3) body = n ∨
      label ∈ ["术语表", "变更记录"] ∧ countKind (.bullet 0) body = n) ∧
    ShowsChapter manifest label body

/-- The bullets behind a heading of the third level announce their items. -/
def AnnouncesLists (_line : String) (body : List String) : Prop :=
  Scoped lineRank 7 (Announces sectionLabels []) body

/-- A heading of the fourth level announces the sections of a part of a module, and the bullets of
these announce their items. -/
def AnnouncesPart (line : String) (body : List String) : Prop :=
  ∃ label ∈ ["流程", "规则", "状态机", "伪代码"], ∃ n, line = "#### " ++ counted label n ∧
    countKind (.heading 5) body = n ∧
    Scoped lineRank 7 (Announces (flatLabels label) (nestedLabels label)) body

theorem scoped_lines_of_listPart {flat nested : List String} {entries : List Entry}
    (h : ListPart flat nested entries) :
    Scoped lineRank 7 (Announces flat nested) (entries.map Entry.line) :=
  h.holds.map lineRank_line

/-! ## The parts of a module -/

/-- A part of a module with its sections. -/
theorem headingPart_part {α : Type} (label : String) {entriesOf : α → List Entry}
    (hlabel : label ∈ ["流程", "规则", "状态机", "伪代码"])
    (hlevels : ∀ a, levels ((entriesOf a).map Entry.kind) = [5])
    (hlists : ∀ a, ListPart (flatLabels label) (nestedLabels label) (entriesOf a))
    (items : List α) :
    HeadingPart 4 4 AnnouncesPart
      (.heading 4 (counted label items.length) :: items.flatMap entriesOf) := by
  have hall := levels_flatMap_entries hlevels items
  have hpart : ListPart (flatLabels label) (nestedLabels label) (items.flatMap entriesOf) :=
    .flatMap fun a _ => hlists a
  have hbelow : ∀ entry ∈ items.flatMap entriesOf, 4 < entry.rank := by
    refine lt_rank_of_levels (by decide) fun l hl => ?_
    rw [hall] at hl
    rw [List.eq_of_mem_replicate hl]
    decide
  refine headingPart_heading (by simp [maxHeadingLevel]) le_rfl hbelow
    ⟨label, hlabel, items.length, rfl, ?_, scoped_lines_of_listPart hpart⟩
  rw [countKind_heading, hall, List.count_replicate_self]

theorem levels_flowEntries (rules : List Rule) (flow : Flow) :
    levels ((flowEntries rules flow).map Entry.kind) = [5] := by
  rw [kinds_flowEntries, levels_kinds_flow]

theorem levels_ruleEntries (rule : Rule) : levels ((ruleEntries rule).map Entry.kind) = [5] := by
  rw [kinds_ruleEntries, levels_kinds_rule]

theorem levels_stateMachineEntries (machine : StateMachine) :
    levels ((stateMachineEntries machine).map Entry.kind) = [5] := by
  rw [kinds_stateMachineEntries, levels_kinds_machine]

theorem levels_pseudocodeEntries (pseudo : Pseudocode) :
    levels ((pseudocodeEntries pseudo).map Entry.kind) = [5] := by
  rw [kinds_pseudocodeEntries, levels_kinds_pseudocode]

/-- The parts of a module. -/
def modulePartEntries (module : Module) : List Entry :=
  .heading 4 (counted "流程" module.flows.length) ::
    module.flows.flatMap (flowEntries module.rules) ++
  .heading 4 (counted "规则" module.rules.length) :: module.rules.flatMap ruleEntries ++
  .heading 4 (counted "状态机" module.stateMachines.length) ::
    module.stateMachines.flatMap stateMachineEntries ++
  .heading 4 (counted "伪代码" module.pseudocodes.length) ::
    module.pseudocodes.flatMap pseudocodeEntries

theorem moduleEntries_eq (module : Module) :
    moduleEntries module =
      .heading 3 (titled module.name module.id) :: moduleBullets module ++
        modulePartEntries module := by
  simp [moduleEntries, moduleBullets, modulePartEntries]

theorem headingPart_modulePartEntries (module : Module) :
    HeadingPart 4 4 AnnouncesPart (modulePartEntries module) := by
  have hflows : HeadingPart 4 4 AnnouncesPart
      (.heading 4 (counted "流程" module.flows.length) ::
        module.flows.flatMap (flowEntries module.rules)) :=
    headingPart_part "流程" (by decide) (levels_flowEntries _) (listPart_flowEntries _) _
  have hrules : HeadingPart 4 4 AnnouncesPart
      (.heading 4 (counted "规则" module.rules.length) :: module.rules.flatMap ruleEntries) :=
    headingPart_part "规则" (by decide) levels_ruleEntries listPart_ruleEntries _
  have hmachines : HeadingPart 4 4 AnnouncesPart
      (.heading 4 (counted "状态机" module.stateMachines.length) ::
        module.stateMachines.flatMap stateMachineEntries) :=
    headingPart_part "状态机" (by decide) levels_stateMachineEntries listPart_stateMachineEntries _
  have hpseudocodes : HeadingPart 4 4 AnnouncesPart
      (.heading 4 (counted "伪代码" module.pseudocodes.length) ::
        module.pseudocodes.flatMap pseudocodeEntries) :=
    headingPart_part "伪代码" (by decide) levels_pseudocodeEntries listPart_pseudocodeEntries _
  exact ((hflows.append hrules).append hmachines).append hpseudocodes

/-! ## Levels of the sections -/

theorem levels_moduleEntries (module : Module) :
    levels ((moduleEntries module).map Entry.kind) = module.headingLevels := by
  rw [kinds_moduleEntries, levels_kinds_module]

theorem levels_modulePartEntries (module : Module) :
    levels ((modulePartEntries module).map Entry.kind) =
      4 :: List.replicate module.flows.length 5 ++ 4 :: List.replicate module.rules.length 5 ++
        4 :: List.replicate module.stateMachines.length 5 ++
        4 :: List.replicate module.pseudocodes.length 5 := by
  simp [modulePartEntries, levels_flatMap_entries (levels_flowEntries module.rules),
    levels_flatMap_entries levels_ruleEntries, levels_flatMap_entries levels_stateMachineEntries,
    levels_flatMap_entries levels_pseudocodeEntries, maxHeadingLevel]

theorem two_lt_of_mem_levels_modules {modules : List Module} {l : Nat}
    (hl : l ∈ levels ((modules.flatMap moduleEntries).map Entry.kind)) : 2 < l := by
  rw [List.map_flatMap, levels_flatMap] at hl
  obtain ⟨part, hpart, hl⟩ := List.mem_flatten.1 hl
  obtain ⟨module, _, rfl⟩ := List.mem_map.1 hpart
  rw [levels_moduleEntries] at hl
  exact (isSection_module module).le l hl

theorem levels_moduleBullets (module : Module) :
    levels ((moduleBullets module).map Entry.kind) = [] := by
  simp [moduleBullets]

theorem levels_entityEntries (entity : Entity) :
    levels ((entityEntries entity).map Entry.kind) = [3] := by
  simp [kinds_entityEntries, entityKinds]

theorem levels_dataModelEntries (model : DataModel) :
    levels ((dataModelEntries model).map Entry.kind) = [3] := by
  simp [kinds_dataModelEntries, DataModelShape.kinds]

theorem levels_projectEntries (project : ProjectMeta) :
    levels ((projectEntries project).map Entry.kind) = [1] := by
  cases hhosted : nonempty? project.repository <;>
    simp [projectEntries, hhosted, maxHeadingLevel]

theorem levels_bullets {α : Type} {f : α → Entry} (h : ∀ a, (f a).kind = .bullet 0)
    (items : List α) : levels ((items.map f).map Entry.kind) = [] := by
  simp [Function.comp_def, h]

/-! ## The sections of the third level -/

/-- A section whose bullets announce their items. -/
theorem headingPart_section {text : String} {body : List Entry}
    (hlevels : levels (body.map Entry.kind) = []) (hlists : ListPart sectionLabels [] body) :
    HeadingPart 3 6 AnnouncesLists (.heading 3 text :: body) := by
  refine headingPart_heading (by simp [maxHeadingLevel]) (by decide)
    (lt_rank_of_levels (by decide) fun l hl => ?_) (scoped_lines_of_listPart hlists)
  rw [hlevels] at hl
  cases hl

theorem headingPart_moduleEntries (module : Module) :
    HeadingPart 3 6 AnnouncesLists (moduleEntries module) := by
  have hparts : HeadingPart 3 6 AnnouncesLists (modulePartEntries module) := by
    refine headingPart_of_levels ?_ ?_
    · simp [modulePartEntries, maxHeadingLevel]
    · simp [levels_modulePartEntries, List.mem_replicate]
  rw [moduleEntries_eq]
  exact (headingPart_section (levels_moduleBullets module) (listPart_moduleBullets module)).append
    hparts

theorem headingPart_entityEntries (entity : Entity) :
    HeadingPart 3 6 AnnouncesLists (entityEntries entity) :=
  headingPart_section (by simp) (listPart_entityBullets entity)

theorem headingPart_dataModelEntries (model : DataModel) :
    HeadingPart 3 6 AnnouncesLists (dataModelEntries model) :=
  headingPart_section (by simp) (listPart_dataModelBullets model)

/-! ## The chapters -/

/-- A chapter with its entries. -/
theorem headingPart_chapter {manifest : Manifest} {label : String} {n : Nat} {body : List Entry}
    (hbelow : ∀ entry ∈ body, 2 < entry.rank)
    (hcount : label ∈ ["模块", "实体", "数据模型"] ∧
        (levels (body.map Entry.kind)).count 3 = n ∨
      label ∈ ["术语表", "变更记录"] ∧ (body.map Entry.kind).count (.bullet 0) = n)
    (hshows : ShowsChapter manifest label (body.map Entry.line)) :
    HeadingPart 2 2 (AnnouncesChapter manifest) (.heading 2 (counted label n) :: body) := by
  refine headingPart_heading (by simp [maxHeadingLevel]) le_rfl hbelow ⟨label, n, rfl, ?_, hshows⟩
  rwa [countKind_heading, countKind_lines]

/-- A chapter of bullets. -/
theorem headingPart_bullets {α : Type} {manifest : Manifest} (label : String)
    (hlabel : label ∈ ["术语表", "变更记录"]) {bullet : α → Entry}
    (hbullet : ∀ a, (bullet a).kind = .bullet 0) (items : List α) :
    HeadingPart 2 2 (AnnouncesChapter manifest)
      (.heading 2 (counted label items.length) :: items.map bullet) := by
  have hother : label ≠ "模块" ∧ label ≠ "实体" ∧ label ≠ "数据模型" := by
    refine ⟨?_, ?_, ?_⟩ <;> rintro rfl <;> exact absurd hlabel (by decide)
  refine headingPart_chapter (lt_rank_of_levels (by decide) ?_) (.inr ⟨hlabel, ?_⟩)
    ⟨fun h => absurd h hother.1, fun h => absurd h hother.2.1, fun h => absurd h hother.2.2⟩
  · rw [levels_bullets hbullet]
    simp
  · simp [Function.comp_def, hbullet]

/-- The chapters of an outline. -/
theorem headingPart_outlineEntries (manifest : Manifest) :
    HeadingPart 2 2 (AnnouncesChapter manifest) (outlineEntries manifest) := by
  have hproject : HeadingPart 2 2 (AnnouncesChapter manifest)
      (projectEntries manifest.project) :=
    headingPart_of_levels (by simp [projectEntries, maxHeadingLevel])
      (by simp [levels_projectEntries])
  have hmodules : HeadingPart 2 2 (AnnouncesChapter manifest)
      (.heading 2 (counted "模块" manifest.modules.length) ::
        manifest.modules.flatMap moduleEntries) := by
    refine headingPart_chapter
      (lt_rank_of_levels (by decide) fun l => two_lt_of_mem_levels_modules)
      (.inl ⟨by decide, ?_⟩)
      ⟨fun _ => ⟨showsModuleLists manifest.modules, showsModuleCounts manifest.modules⟩,
        fun h => absurd h (by decide), fun h => absurd h (by decide)⟩
    simp [List.map_flatMap, levels_flatMap, List.count_flatten, Function.comp_def,
        levels_moduleEntries, count_module]
  have hentities : HeadingPart 2 2 (AnnouncesChapter manifest)
      (.heading 2 (counted "实体" manifest.entities.length) ::
        manifest.entities.flatMap entityEntries) := by
    refine headingPart_chapter (lt_rank_of_levels (by decide) ?_)
      (.inl ⟨by decide, ?_⟩)
      ⟨fun h => absurd h (by decide), fun _ => showsEntityLists manifest.entities,
        fun h => absurd h (by decide)⟩
    · simp [levels_flatMap_entries levels_entityEntries, List.mem_replicate]
    · simp [levels_flatMap_entries levels_entityEntries]
  have hmodels : HeadingPart 2 2 (AnnouncesChapter manifest)
      (.heading 2 (counted "数据模型" manifest.dataModels.length) ::
        manifest.dataModels.flatMap dataModelEntries) := by
    refine headingPart_chapter (lt_rank_of_levels (by decide) ?_)
      (.inl ⟨by decide, ?_⟩)
      ⟨fun h => absurd h (by decide), fun h => absurd h (by decide),
        fun _ => showsFieldCounts manifest.dataModels⟩
    · simp [levels_flatMap_entries levels_dataModelEntries, List.mem_replicate]
    · simp [levels_flatMap_entries levels_dataModelEntries]
  have hglossary : HeadingPart 2 2 (AnnouncesChapter manifest)
      (.heading 2 (counted "术语表" manifest.glossary.entries.length) ::
        manifest.glossary.entries.map glossaryBullet) :=
    headingPart_bullets "术语表" (by decide) (fun _ => rfl) _
  have hchangelog : HeadingPart 2 2 (AnnouncesChapter manifest)
      (.heading 2 (counted "变更记录" manifest.changelog.length) ::
        manifest.changelog.map changelogBullet) :=
    headingPart_bullets "变更记录" (by decide) (fun _ => rfl) _
  exact ((((hproject.append hmodules).append hentities).append hmodels).append hglossary).append
    hchangelog

/-! ## The whole outline -/

/-- The headings below the chapters, from those in the sections of each chapter. -/
private theorem headingPart_sections {level r : Nat} {Q : String → List String → Prop}
    (manifest : Manifest) (hr : 2 ≤ r) (hlevel : 2 < level)
    (hmodules : ∀ module, HeadingPart level r Q (moduleEntries module))
    (hentities : ∀ entity, HeadingPart level r Q (entityEntries entity))
    (hmodels : ∀ model, HeadingPart level r Q (dataModelEntries model)) :
    HeadingPart level r Q (outlineEntries manifest) := by
  have hchapter : ∀ {entries} text, HeadingPart level r Q entries →
      HeadingPart level r Q (.heading 2 text :: entries) := by
    intro entries text h
    refine h.cons_heading text (by simpa [maxHeadingLevel] using hr) ?_
    simp only [kind_heading, maxHeadingLevel, ne_eq, LineKind.heading.injEq]
    omega
  have hproject : HeadingPart level r Q (projectEntries manifest.project) := by
    refine headingPart_of_levels ?_ ?_
    · simp only [projectEntries, List.head?_cons, Option.mem_some_iff, forall_eq', rank_heading,
        maxHeadingLevel]
      omega
    · rw [levels_projectEntries, List.mem_singleton]
      omega
  have hbullets : ∀ {α : Type} text {f : α → Entry}, (∀ a, (f a).kind = .bullet 0) →
      ∀ items : List α, HeadingPart level r Q (.heading 2 text :: items.map f) := by
    intro α text f hf items
    refine headingPart_of_levels (by simpa [maxHeadingLevel] using hr) ?_
    rw [List.map_cons, kind_heading, levels_heading, levels_bullets hf, List.mem_singleton,
      maxHeadingLevel]
    omega
  exact ((((hproject.append (hchapter _ (.flatMap fun module _ => hmodules module))).append
    (hchapter _ (.flatMap fun entity _ => hentities entity))).append
    (hchapter _ (.flatMap fun model _ => hmodels model))).append
    (hbullets _ (fun _ => rfl) _)).append (hbullets _ (fun _ => rfl) _)

/-- The lines of headings of a level. -/
def headingLines (level : Nat) (lines : List String) : List String :=
  lines.filter fun line => lineKind? line = some (.heading level)

theorem headingPart_four (manifest : Manifest) :
    HeadingPart 4 4 AnnouncesPart (outlineEntries manifest) := by
  refine headingPart_sections manifest (by decide) (by decide) ?_ ?_ ?_
  · intro module
    have hfront : HeadingPart 4 4 AnnouncesPart
        (.heading 3 (titled module.name module.id) :: moduleBullets module) := by
      refine headingPart_of_levels (by simp [maxHeadingLevel]) ?_
      simp [levels_moduleBullets, maxHeadingLevel]
    rw [moduleEntries_eq]
    exact hfront.append (headingPart_modulePartEntries module)
  · intro entity
    exact headingPart_of_levels (by simp [entityEntries, maxHeadingLevel])
      (by simp [levels_entityEntries])
  · intro model
    exact headingPart_of_levels (by simp [dataModelEntries, maxHeadingLevel])
      (by simp [levels_dataModelEntries])

theorem headingPart_three (manifest : Manifest) :
    HeadingPart 3 6 AnnouncesLists (outlineEntries manifest) :=
  headingPart_sections manifest (by decide) (by decide) headingPart_moduleEntries
    headingPart_entityEntries headingPart_dataModelEntries

section

variable {level : Nat} {entries : List Entry}

theorem headingLines_lines (level : Nat) (entries : List Entry) :
    headingLines level (entries.map Entry.line ++ [""]) =
      (entries.filter fun entry => entry.kind = .heading level).map Entry.line := by
  have hlast : lineKind? "" = none := by decide
  simp [headingLines, List.filter_map, Function.comp_def, lineKind?_line, hlast]

theorem filter_kind_eq_nil (h : level ∉ levels (entries.map Entry.kind)) :
    entries.filter (fun entry => entry.kind = .heading level) = [] := by
  rw [List.filter_eq_nil_iff]
  intro entry hentry hkind
  exact h (mem_levels_of_kind hentry (of_decide_eq_true hkind))

theorem filter_heading_cons {text : String}
    (hkind : (Entry.heading level text).kind = .heading level)
    (h : level ∉ levels (entries.map Entry.kind)) :
    (Entry.heading level text :: entries).filter (fun entry => entry.kind = .heading level) =
      [.heading level text] := by
  rw [List.filter_cons_of_pos (by simpa using hkind), filter_kind_eq_nil h]

end

/-- Outside the chapter of the modules, all sections are of the third level. -/
private theorem notMem_levels_chapters (manifest : Manifest) {level : Nat} (h : level ≠ 3) :
    level ∉ levels ((manifest.entities.flatMap entityEntries).map Entry.kind) ∧
      level ∉ levels ((manifest.dataModels.flatMap dataModelEntries).map Entry.kind) ∧
      level ∉ levels ((manifest.glossary.entries.map glossaryBullet).map Entry.kind) ∧
      level ∉ levels ((manifest.changelog.map changelogBullet).map Entry.kind) := by
  rw [levels_flatMap_entries levels_entityEntries, levels_flatMap_entries levels_dataModelEntries,
    levels_bullets fun _ => rfl, levels_bullets fun _ => rfl]
  simp [List.mem_replicate, h]

/-- The headings of the second level are those of the chapters. -/
theorem headingLines_two (manifest : Manifest) :
    headingLines 2 (splitLines (outline manifest)) =
      ["## " ++ counted "模块" manifest.modules.length,
        "## " ++ counted "实体" manifest.entities.length,
        "## " ++ counted "数据模型" manifest.dataModels.length,
        "## " ++ counted "术语表" manifest.glossary.entries.length,
        "## " ++ counted "变更记录" manifest.changelog.length] := by
  have hproject : 2 ∉ levels ((projectEntries manifest.project).map Entry.kind) := by
    simp [levels_projectEntries]
  have hmodules : 2 ∉ levels ((manifest.modules.flatMap moduleEntries).map Entry.kind) :=
    fun h => absurd (two_lt_of_mem_levels_modules h) (by decide)
  obtain ⟨hentities, hmodels, hglossary, hchangelog⟩ :=
    notMem_levels_chapters manifest (show 2 ≠ 3 by decide)
  rw [splitLines_outline, headingLines_lines, outlineEntries]
  simp only [List.filter_append, filter_kind_eq_nil hproject, filter_heading_cons rfl hmodules,
    filter_heading_cons rfl hentities, filter_heading_cons rfl hmodels,
    filter_heading_cons rfl hglossary, filter_heading_cons rfl hchangelog]
  rfl

theorem filter_moduleEntries_four (module : Module) :
    (moduleEntries module).filter (fun entry => entry.kind = .heading 4) =
      [.heading 4 (counted "流程" module.flows.length),
        .heading 4 (counted "规则" module.rules.length),
        .heading 4 (counted "状态机" module.stateMachines.length),
        .heading 4 (counted "伪代码" module.pseudocodes.length)] := by
  have hfront : 4 ∉ levels ((Entry.heading 3 (titled module.name module.id) ::
      moduleBullets module).map Entry.kind) := by
    simp [levels_moduleBullets, maxHeadingLevel]
  have hpart : ∀ {α : Type} {f : α → List Entry}, (∀ a, levels ((f a).map Entry.kind) = [5]) →
      ∀ items : List α, 4 ∉ levels ((items.flatMap f).map Entry.kind) := by
    intro α f hf items
    simp [levels_flatMap_entries hf, List.mem_replicate]
  rw [moduleEntries_eq, List.filter_append, filter_kind_eq_nil hfront, modulePartEntries]
  simp only [List.filter_append, filter_heading_cons rfl (hpart (levels_flowEntries _) _),
    filter_heading_cons rfl (hpart levels_ruleEntries _),
    filter_heading_cons rfl (hpart levels_stateMachineEntries _),
    filter_heading_cons rfl (hpart levels_pseudocodeEntries _)]
  rfl

/-- The headings of the fourth level are those of the parts of the modules. -/
theorem headingLines_four (manifest : Manifest) :
    headingLines 4 (splitLines (outline manifest)) = manifest.modules.flatMap fun module =>
      ["#### " ++ counted "流程" module.flows.length, "#### " ++ counted "规则" module.rules.length,
        "#### " ++ counted "状态机" module.stateMachines.length,
        "#### " ++ counted "伪代码" module.pseudocodes.length] := by
  have hproject : 4 ∉ levels ((projectEntries manifest.project).map Entry.kind) := by
    simp [levels_projectEntries]
  obtain ⟨hentities, hmodels, hglossary, hchangelog⟩ :=
    notMem_levels_chapters manifest (show 4 ≠ 3 by decide)
  have hchapter : ∀ {text : String} {body : List Entry},
      (Entry.heading 2 text :: body).filter (fun entry => entry.kind = .heading 4) =
        body.filter fun entry => entry.kind = .heading 4 :=
    List.filter_cons_of_neg (by simp [maxHeadingLevel])
  rw [splitLines_outline, headingLines_lines, outlineEntries]
  simp only [List.filter_append, hchapter, filter_kind_eq_nil hproject,
    filter_kind_eq_nil hentities, filter_kind_eq_nil hmodels, filter_kind_eq_nil hglossary,
    filter_kind_eq_nil hchangelog, List.filter_flatMap, filter_moduleEntries_four, List.nil_append,
    List.append_nil, List.map_flatMap]
  rfl

/-- The counts in the lines of an outline are true.  The headings of the second and of the fourth
level are those that announce the collections of the manifest and of its modules.  Each of them
has as many entries under it as it announces, and so has each bullet that announces a list in a
section of the third level or in a part of a module.  The bullets with a count in a chapter are
those of the lists in the manifest, and the lists on one line show as many items as they
announce. -/
structure CountsHold (manifest : Manifest) (lines : List String) : Prop where
  chapterLines : headingLines 2 lines =
    ["## " ++ counted "模块" manifest.modules.length,
      "## " ++ counted "实体" manifest.entities.length,
      "## " ++ counted "数据模型" manifest.dataModels.length,
      "## " ++ counted "术语表" manifest.glossary.entries.length,
      "## " ++ counted "变更记录" manifest.changelog.length]
  partLines : headingLines 4 lines = manifest.modules.flatMap fun module =>
    ["#### " ++ counted "流程" module.flows.length, "#### " ++ counted "规则" module.rules.length,
      "#### " ++ counted "状态机" module.stateMachines.length,
      "#### " ++ counted "伪代码" module.pseudocodes.length]
  chapters : Scoped lineRank 2 (AboutHeading 2 (AnnouncesChapter manifest)) lines
  sections : Scoped lineRank 6 (AboutHeading 3 AnnouncesLists) lines
  parts : Scoped lineRank 4 (AboutHeading 4 AnnouncesPart) lines

/-- Every count that an outline announces is the number of entries that follow, whatever is absent,
blank or repeated in the manifest. -/
theorem outline_counts (manifest : Manifest) :
    CountsHold manifest (splitLines (outline manifest)) where
  chapterLines := headingLines_two manifest
  partLines := headingLines_four manifest
  chapters := by
    rw [splitLines_outline]
    exact (headingPart_outlineEntries manifest).holds.lines (fun h => absurd h (by decide))
  sections := by
    rw [splitLines_outline]
    exact (headingPart_three manifest).holds.lines (fun h => absurd h (by decide))
  parts := by
    rw [splitLines_outline]
    exact (headingPart_four manifest).holds.lines (fun h => absurd h (by decide))

end ManifestAtlas
