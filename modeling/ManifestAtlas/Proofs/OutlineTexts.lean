import Mathlib
import ManifestAtlas.Outline.Sections
import ManifestAtlas.Proofs.LabelEscapes
import ManifestAtlas.Proofs.ManifestTexts
import ManifestAtlas.Proofs.TextLines

/-!
# What the entries of an outline are made of

The text of every entry of an outline is woven from three sorts of pieces:
fixed words, texts of the manifest that went through `escapeOutline`, and code
spans.  `Woven` says so for one text and `AllWoven` for all entries; the source
is a property that the texts of the manifest share.

There is one lemma for each function that builds entries, up to the outline as
a whole (`allWoven_outlineEntries`).  What escaping and code spans keep out of a
text is thus kept out of every entry (`Woven.notMem`, `notMem_line`).
-/

namespace ManifestAtlas

/-! ## Woven texts -/

/-- A text that is put together from fixed words, from texts of a source in their escaped form,
and from code spans. -/
inductive Woven (source : String → Prop) : String → Prop where
  | fixed {text : String} (h : text.toList.all staysOnLine = true) : Woven source text
  | escaped {text : String} (h : source text) : Woven source (escapeOutline text)
  | code (text : String) : Woven source (inlineCode text)
  | append {a b : String} (ha : Woven source a) (hb : Woven source b) : Woven source (a ++ b)

/-- The text of an entry. -/
def Entry.text : Entry → String
  | .heading _ text => text
  | .bullet _ text => text

/-- The texts of some entries are woven from a source. -/
def AllWoven (source : String → Prop) (entries : List Entry) : Prop :=
  ∀ entry ∈ entries, Woven source entry.text

section

variable {source : String → Prop}

@[simp] theorem allWoven_nil : AllWoven source [] := by
  simp [AllWoven]

@[simp] theorem allWoven_cons {entry : Entry} {entries : List Entry} :
    AllWoven source (entry :: entries) ↔ Woven source entry.text ∧ AllWoven source entries := by
  simp [AllWoven]

@[simp] theorem allWoven_append {xs ys : List Entry} :
    AllWoven source (xs ++ ys) ↔ AllWoven source xs ∧ AllWoven source ys := by
  simp [AllWoven, or_imp, forall_and]

@[simp] theorem allWoven_flatMap {α : Type} {f : α → List Entry} {xs : List α} :
    AllWoven source (xs.flatMap f) ↔ ∀ x ∈ xs, AllWoven source (f x) := by
  simp only [AllWoven, List.mem_flatMap]
  exact ⟨fun h x hx entry hentry => h entry ⟨x, hx, hentry⟩,
    fun h entry ⟨x, hx, hentry⟩ => h x hx entry hentry⟩

theorem woven_repr (n : Nat) : Woven source n.repr := by
  refine .fixed (List.all_eq_true.2 fun c hc => ?_)
  rw [Nat.toList_repr] at hc
  have hdigit := Nat.isDigit_of_mem_toDigits (by decide) (by decide) hc
  by_contra hbreak
  rcases eq_of_not_staysOnLine (Bool.eq_false_of_not_eq_true hbreak) with rfl | rfl
  · exact absurd hdigit (by decide)
  · exact absurd hdigit (by decide)

theorem woven_order (order : Int64) : Woven source (toString order) := by
  show Woven source order.toInt.repr
  cases order.toInt with
  | ofNat n => exact woven_repr n
  | negSucc n => exact .append (.fixed (by decide)) (woven_repr _)

theorem woven_intercalate {separator : String} {parts : List String}
    (hseparator : separator.toList.all staysOnLine = true)
    (h : ∀ part ∈ parts, Woven source part) : Woven source (separator.intercalate parts) :=
  intercalate_of_append (.fixed (by decide)) Woven.append (.fixed hseparator) h

/-! ## The entries that come up again -/

theorem woven_titled {name id : String} (hname : source name) (hid : source id) :
    Woven source (titled name id) :=
  (((Woven.escaped hname).append (.fixed (by decide))).append (.escaped hid)).append
    (.fixed (by decide))

theorem woven_counted {label : String} (hlabel : label.toList.all staysOnLine = true)
    (count : Nat) : Woven source (counted label count) :=
  (((Woven.fixed hlabel).append (.fixed (by decide))).append (woven_repr count)).append
    (.fixed (by decide))

theorem woven_extended {text separator : String} {more : Option String}
    (htext : Woven source text) (hseparator : separator.toList.all staysOnLine = true)
    (h : ∀ t ∈ more.toList, source t) : Woven source (extended text separator more) := by
  cases more with
  | none => exact htext.append (show Woven source "" from .fixed (by decide))
  | some m => exact htext.append ((Woven.fixed hseparator).append (.escaped (h m (by simp))))

/-- What holds of an optional text holds of it as long as it is shown. -/
theorem forall_mem_filter {p : String → Bool} {text : Option String}
    (h : ∀ t ∈ text.toList, source t) : ∀ t ∈ (text.filter p).toList, source t := by
  intro t ht
  rw [Option.mem_toList, Option.filter_eq_some_iff] at ht
  exact h t (Option.mem_toList.2 ht.1)

theorem forall_mem_distinctVisible {texts : List String} (h : ∀ t ∈ texts, source t) :
    ∀ t ∈ distinctVisible texts, source t := fun t ht =>
  h t (mem_distinctVisible.1 ht).1

theorem allWoven_fieldEntry {label : String} (hlabel : label.toList.all staysOnLine = true)
    (depth : Nat) {text : Option String} (h : ∀ t ∈ text.toList, source t) :
    AllWoven source (fieldEntry depth label text) := by
  intro entry hentry
  obtain ⟨t, ht, rfl⟩ := List.mem_map.1 hentry
  exact ((Woven.fixed hlabel).append (.fixed (by decide))).append
    (.escaped (forall_mem_filter h t ht))

theorem allWoven_placeEntry (depth : Nat) (place : Option CodeRef) :
    AllWoven source (placeEntry depth place) := by
  simp only [placeEntry]
  split
  · exact allWoven_nil
  · exact allWoven_cons.2 ⟨(Woven.fixed (by decide)).append (.code _), allWoven_nil⟩

theorem woven_inlineListEntry {label separator : String} {texts : List String}
    (hlabel : label.toList.all staysOnLine = true)
    (hseparator : separator.toList.all staysOnLine = true) (depth : Nat)
    (h : ∀ t ∈ texts, source t) :
    Woven source (inlineListEntry depth label texts separator).text := by
  simp only [inlineListEntry]
  split
  · exact woven_counted hlabel 0
  · refine ((woven_counted hlabel _).append (.fixed (by decide))).append
      (woven_intercalate hseparator fun part hpart => ?_)
    obtain ⟨t, ht, rfl⟩ := List.mem_map.1 hpart
    exact .escaped (forall_mem_distinctVisible h t ht)

theorem allWoven_bullets {α : Type} {depth : Nat} {f : α → String} {xs : List α}
    (h : ∀ x ∈ xs, Woven source (f x)) :
    AllWoven source (xs.map fun x => .bullet depth (f x)) := by
  intro entry hentry
  obtain ⟨x, hx, rfl⟩ := List.mem_map.1 hentry
  exact h x hx

theorem allWoven_listEntries {α : Type} {label : String} {f : α → String} {xs : List α}
    (hlabel : label.toList.all staysOnLine = true) (depth : Nat)
    (h : ∀ x ∈ xs, Woven source (f x)) :
    AllWoven source (listEntries depth label (xs.map f)) := by
  rw [listEntries, List.map_map, allWoven_cons]
  exact ⟨woven_counted hlabel _, allWoven_bullets h⟩

theorem woven_distinct {texts : List String} (h : ∀ t ∈ texts, source t) :
    ∀ t ∈ distinctVisible texts, Woven source (escapeOutline t) := fun t ht =>
  .escaped (forall_mem_distinctVisible h t ht)

/-! ## The parts of a module -/

/-- A step shows its own texts and the names of rules. -/
theorem allWoven_stepEntries {rules : List Rule} {step : Step} (h : ∀ t ∈ step.texts, source t)
    (hrules : ∀ t ∈ rules.flatMap Rule.texts, source t) :
    AllWoven source (stepEntries rules step) := by
  simp only [Step.texts, List.forall_mem_cons, List.forall_mem_append] at h
  obtain ⟨hname, ⟨⟨-, hdescription⟩, hids⟩, -⟩ := h
  have hnames : ∀ t ∈ outlineRules rules step, source t := by
    intro t ht
    obtain ⟨id, hid, rfl⟩ := List.mem_map.1 ht
    cases hrule : findRule? rules id with
    | none => exact forall_mem_distinctVisible hids id hid
    | some rule => exact hrules rule.name (name_mem_texts_of_findRule? hrule)
  simp only [stepEntries, allWoven_cons, allWoven_append]
  refine ⟨?_, ⟨allWoven_fieldEntry (by decide) 2 hdescription, ?_⟩, allWoven_placeEntry 2 _⟩
  · exact (((Woven.fixed (by decide)).append (woven_order _)).append (.fixed (by decide))).append
      (.escaped hname)
  · split
    · exact allWoven_nil
    · exact allWoven_cons.2
        ⟨woven_inlineListEntry (by decide) (by decide) 2 hnames, allWoven_nil⟩

theorem allWoven_flowEntries {rules : List Rule} {flow : Flow} (h : ∀ t ∈ flow.texts, source t)
    (hrules : ∀ t ∈ rules.flatMap Rule.texts, source t) :
    AllWoven source (flowEntries rules flow) := by
  simp only [Flow.texts, List.forall_mem_cons, List.forall_mem_append,
    List.forall_mem_flatMap] at h
  obtain ⟨hid, hname, ⟨⟨hdescription, htrigger⟩, hsteps⟩, -⟩ := h
  simp only [flowEntries, allWoven_cons, allWoven_append, allWoven_flatMap]
  refine ⟨woven_titled hname hid, ⟨⟨allWoven_fieldEntry (by decide) 0 htrigger,
    allWoven_fieldEntry (by decide) 0 hdescription⟩, allWoven_placeEntry 0 _⟩,
    woven_counted (by decide) _, fun step hstep => ?_⟩
  exact allWoven_stepEntries (hsteps step (flow.orderedSteps_perm.mem_iff.1 hstep)) hrules

theorem allWoven_ruleEntries {rule : Rule} (h : ∀ t ∈ rule.texts, source t) :
    AllWoven source (ruleEntries rule) := by
  simp only [Rule.texts, List.forall_mem_cons, List.forall_mem_append] at h
  obtain ⟨hid, hname, ⟨⟨⟨⟨hcategory, hdescription⟩, hconstraints⟩, heffects⟩, hfields⟩, -⟩ := h
  simp only [ruleEntries, allWoven_cons, allWoven_append]
  refine ⟨woven_titled hname hid, ?_, ⟨⟨⟨⟨allWoven_fieldEntry (by decide) 0 hcategory,
    allWoven_fieldEntry (by decide) 0 hdescription⟩,
    allWoven_listEntries (by decide) 0 (woven_distinct hconstraints)⟩,
    allWoven_listEntries (by decide) 0 (woven_distinct heffects)⟩, ?_⟩, allWoven_placeEntry 0 _⟩
  · refine (Woven.fixed (by decide)).append (.fixed ?_)
    cases rule.priority <;> decide
  · split
    · exact allWoven_nil
    · exact allWoven_cons.2
        ⟨woven_inlineListEntry (by decide) (by decide) 0 hfields, allWoven_nil⟩

theorem woven_stateName {machine : StateMachine} (h : ∀ t ∈ machine.texts, source t) {id : String}
    (hid : source id) : Woven source (machine.stateName id) := by
  refine .escaped ?_
  cases hstate : machine.state? id with
  | none => exact hid
  | some state =>
    have hmem : state ∈ machine.states := List.mem_of_find?_eq_some hstate
    refine h state.name ?_
    simp only [StateMachine.texts, List.mem_cons, List.mem_append, List.mem_flatMap]
    exact .inr (.inr (.inl (.inr ⟨state, hmem, by simp [State.texts]⟩)))

theorem woven_stateTitle {state : State} (h : source state.name) :
    Woven source (stateTitle state) := by
  refine ((Woven.escaped h).append ?_).append ?_ <;> split <;> exact .fixed (by decide)

theorem allWoven_stateMachineEntries {machine : StateMachine}
    (h : ∀ t ∈ machine.texts, source t) : AllWoven source (stateMachineEntries machine) := by
  have hstateName : ∀ id, source id → Woven source (machine.stateName id) := fun _ =>
    woven_stateName h
  simp only [StateMachine.texts, List.forall_mem_cons, List.forall_mem_append,
    List.forall_mem_flatMap] at h
  obtain ⟨hid, hname, ⟨⟨hdescription, hentity⟩, hstates⟩, htransitions⟩ := h
  simp only [stateMachineEntries, allWoven_cons, allWoven_append, allWoven_flatMap]
  refine ⟨woven_titled hname hid, ⟨⟨allWoven_fieldEntry (by decide) 0 hentity,
    allWoven_fieldEntry (by decide) 0 hdescription⟩, woven_counted (by decide) _, ?_⟩,
    woven_counted (by decide) _, ?_⟩
  · intro state hstate
    have htexts := hstates state hstate
    simp only [State.texts, List.forall_mem_cons] at htexts
    exact ⟨woven_stateTitle htexts.2.1, allWoven_fieldEntry (by decide) 2 htexts.2.2⟩
  · intro t ht
    have htexts := htransitions t ht
    simp only [Transition.texts, List.forall_mem_cons, List.forall_mem_append] at htexts
    obtain ⟨hsource, htarget, htrigger, hdescription⟩ := htexts
    refine ⟨woven_extended ?_ (by decide) (forall_mem_filter htrigger),
      allWoven_fieldEntry (by decide) 2 hdescription⟩
    exact ((hstateName _ hsource).append (.fixed (by decide))).append (hstateName _ htarget)

theorem woven_paramTitle {param : Param} (h : ∀ t ∈ param.texts, source t) :
    Woven source (paramTitle param) := by
  simp only [Param.texts, List.forall_mem_cons, List.forall_mem_append] at h
  obtain ⟨hname, htype, hdescription⟩ := h
  exact woven_extended (woven_extended (.escaped hname) (by decide) (forall_mem_filter htype))
    (by decide) (forall_mem_filter hdescription)

theorem woven_callTitle {call : ExternalCall} (h : ∀ t ∈ call.texts, source t) :
    Woven source (callTitle call) := by
  simp only [ExternalCall.texts, List.forall_mem_cons] at h
  have hkind : call.kind.label.toList.all staysOnLine = true := by cases call.kind <;> decide
  exact woven_extended (((Woven.fixed hkind).append (.fixed (by decide))).append (.escaped h.1))
    (by decide) (forall_mem_filter h.2)

theorem woven_pseudoStepEntry {step : PseudoStep} (h : source step.text) :
    Woven source (pseudoStepEntry step).text := by
  have hkind : step.kind.label.toList.all staysOnLine = true := by cases step.kind <;> decide
  exact (((Woven.fixed (by decide)).append (.fixed hkind)).append (.fixed (by decide))).append
    (.escaped h)

theorem allWoven_pseudocodeEntries {pseudo : Pseudocode} (h : ∀ t ∈ pseudo.texts, source t) :
    AllWoven source (pseudocodeEntries pseudo) := by
  simp only [Pseudocode.texts, List.forall_mem_cons, List.forall_mem_append,
    List.forall_mem_flatMap, List.forall_mem_map] at h
  obtain ⟨hid, hname, ⟨⟨⟨⟨⟨hdescription, -⟩, hparams⟩, hreturns⟩, -⟩, hsteps⟩, hcalls⟩ := h
  simp only [pseudocodeEntries, allWoven_cons, allWoven_append]
  refine ⟨woven_titled hname hid, ⟨⟨⟨⟨⟨allWoven_fieldEntry (by decide) 0 hdescription, ?_⟩,
    allWoven_listEntries (by decide) 0 fun param hparam => woven_paramTitle (hparams param hparam)⟩,
    allWoven_fieldEntry (by decide) 0 hreturns⟩, allWoven_placeEntry 0 _⟩,
    woven_counted (by decide) _, ?_⟩,
    allWoven_listEntries (by decide) 0 fun call hcall => woven_callTitle (hcalls call hcall)⟩
  · exact allWoven_bullets fun _ _ => (Woven.fixed (by decide)).append (.code _)
  · intro entry hentry
    obtain ⟨step, hstep, rfl⟩ := List.mem_map.1 hentry
    exact woven_pseudoStepEntry (hsteps step hstep)

theorem allWoven_moduleEntries {module : Module} (h : ∀ t ∈ module.texts, source t) :
    AllWoven source (moduleEntries module) := by
  simp only [Module.texts, List.forall_mem_cons, List.forall_mem_append] at h
  obtain ⟨hid, hname, hdescription, ⟨⟨⟨⟨⟨htags, hdependencies⟩, -⟩, hflows⟩, hrules⟩, hmachines⟩,
    hpseudocodes⟩ := h
  rw [List.forall_mem_flatMap] at hflows hmachines hpseudocodes
  simp only [moduleEntries, allWoven_cons, allWoven_append, allWoven_flatMap, and_assoc]
  refine ⟨woven_titled hname hid, allWoven_fieldEntry (by decide) 0 (by simpa using hdescription),
    woven_inlineListEntry (by decide) (by decide) 0 htags,
    woven_inlineListEntry (by decide) (by decide) 0 hdependencies,
    allWoven_listEntries (by decide) 0 fun place _ => .code place,
    woven_counted (by decide) _, fun flow hflow => ?_,
    woven_counted (by decide) _, fun rule hrule => ?_,
    woven_counted (by decide) _, fun machine hmachine => ?_,
    woven_counted (by decide) _, fun pseudo hpseudo => ?_⟩
  · exact allWoven_flowEntries (hflows flow hflow) hrules
  · exact allWoven_ruleEntries (List.forall_mem_flatMap.1 hrules rule hrule)
  · exact allWoven_stateMachineEntries (hmachines machine hmachine)
  · exact allWoven_pseudocodeEntries (hpseudocodes pseudo hpseudo)

/-! ## The whole outline -/

theorem allWoven_projectEntries {project : ProjectMeta} (h : ∀ t ∈ project.texts, source t) :
    AllWoven source (projectEntries project) := by
  simp only [ProjectMeta.texts, List.forall_mem_cons, List.forall_mem_append] at h
  obtain ⟨hname, ⟨⟨hversion, hdescription⟩, -⟩, hupdated⟩ := h
  simp only [projectEntries, allWoven_cons, allWoven_append, and_assoc]
  exact ⟨.escaped hname, allWoven_fieldEntry (by decide) 0 hversion,
    allWoven_fieldEntry (by decide) 0 hdescription,
    allWoven_bullets fun repository _ => (Woven.fixed (by decide)).append (.code repository),
    allWoven_fieldEntry (by decide) 0 hupdated⟩

theorem allWoven_entityEntries {entity : Entity} (h : ∀ t ∈ entity.texts, source t) :
    AllWoven source (entityEntries entity) := by
  simp only [Entity.texts, List.forall_mem_cons, List.forall_mem_append] at h
  obtain ⟨hid, hname, ⟨hdescription, hfields⟩, hstatuses⟩ := h
  simp only [entityEntries, allWoven_cons, allWoven_append]
  exact ⟨woven_titled hname hid, allWoven_fieldEntry (by decide) 0 hdescription,
    woven_inlineListEntry (by decide) (by decide) 0 hfields,
    woven_inlineListEntry (by decide) (by decide) 0 hstatuses, allWoven_nil⟩

theorem woven_columnTitle {field : Field} (h : ∀ t ∈ field.texts, source t) :
    Woven source (columnTitle field) := by
  simp only [Field.texts, List.forall_mem_cons] at h
  obtain ⟨hname, htype, hdescription⟩ := h
  exact woven_extended (((Woven.escaped hname).append (.fixed (by decide))).append (.escaped htype))
    (by decide) (forall_mem_filter hdescription)

theorem allWoven_dataModelEntries {model : DataModel} (h : ∀ t ∈ model.texts, source t) :
    AllWoven source (dataModelEntries model) := by
  simp only [DataModel.texts, List.forall_mem_cons, List.forall_mem_append,
    List.forall_mem_flatMap] at h
  obtain ⟨hid, hname, hdescription, hfields⟩ := h
  simp only [dataModelEntries, allWoven_cons, allWoven_append]
  exact ⟨woven_titled hname hid, allWoven_fieldEntry (by decide) 0 hdescription,
    allWoven_listEntries (by decide) 0 fun field hfield => woven_columnTitle (hfields field hfield)⟩

theorem woven_glossaryBullet {entry : String × GlossaryEntry}
    (h : ∀ t ∈ glossaryTexts entry, source t) : Woven source (glossaryBullet entry).text := by
  simp only [glossaryTexts, List.forall_mem_cons] at h
  obtain ⟨hkey, hterm, hdescription, -⟩ := h
  exact woven_extended (woven_titled hterm hkey) (by decide)
    (forall_mem_filter (by simpa using hdescription))

theorem woven_changelogBullet {entry : ChangelogEntry} (h : ∀ t ∈ entry.texts, source t) :
    Woven source (changelogBullet entry).text := by
  simp only [ChangelogEntry.texts, List.forall_mem_cons] at h
  obtain ⟨hdate, hkind, hsummary, -⟩ := h
  exact ((((Woven.escaped hdate).append (.fixed (by decide))).append (.escaped hkind)).append
    (.fixed (by decide))).append (.escaped hsummary)

/-- The entries of an outline are woven from the texts of the manifest. -/
theorem allWoven_outlineEntries {manifest : Manifest} (h : ∀ t ∈ manifest.texts, source t) :
    AllWoven source (outlineEntries manifest) := by
  simp only [Manifest.texts, List.forall_mem_append, List.forall_mem_flatMap, and_assoc] at h
  obtain ⟨hproject, hmodules, hentities, hmodels, hglossary, hchangelog⟩ := h
  simp only [outlineEntries, allWoven_cons, allWoven_append, allWoven_flatMap, and_assoc]
  refine ⟨allWoven_projectEntries hproject, woven_counted (by decide) _,
    fun module hmodule => allWoven_moduleEntries (hmodules module hmodule),
    woven_counted (by decide) _,
    fun entity hentity => allWoven_entityEntries (hentities entity hentity),
    woven_counted (by decide) _,
    fun model hmodel => allWoven_dataModelEntries (hmodels model hmodel),
    woven_counted (by decide) _, ?_, woven_counted (by decide) _, ?_⟩
  · intro entry hentry
    obtain ⟨term, hterm, rfl⟩ := List.mem_map.1 hentry
    exact woven_glossaryBullet (hglossary term hterm)
  · intro entry hentry
    obtain ⟨change, hchange, rfl⟩ := List.mem_map.1 hentry
    exact woven_changelogBullet (hchangelog change hchange)

end

/-! ## Characters of an entry -/

/-- A character that breaks lines is in no woven text, if escaping keeps it out of the texts of the
source. -/
theorem Woven.notMem {source : String → Prop} {text : String} {c : Char}
    (hc : staysOnLine c = false) (hsource : ∀ t, source t → c ∉ (escapeOutline t).toList)
    (h : Woven source text) : c ∉ text.toList := by
  induction h with
  | fixed hall =>
    intro hmem
    rw [List.all_eq_true.1 hall c hmem] at hc
    contradiction
  | escaped ht => exact hsource _ ht
  | code t =>
    intro hmem
    obtain ⟨hreturn, hfeed⟩ := inlineCode_breakFree hmem
    simp [staysOnLine, hreturn, hfeed] at hc
  | append _ _ iha ihb => simp [iha, ihb]

/-- The marker in front of the text of an entry is made of number signs, dashes and spaces. -/
theorem notMem_line {entry : Entry} {c : Char} (hc : staysOnLine c = false)
    (h : c ∉ entry.text.toList) : c ∉ entry.line.toList := by
  have hplain : c ≠ '#' ∧ c ≠ ' ' ∧ c ≠ '-' := by
    rcases eq_of_not_staysOnLine hc with rfl | rfl <;> decide
  cases entry with
  | heading level text => simpa [Entry.line, headingLine, Entry.text, hplain] using h
  | bullet depth text => simpa [Entry.line, Lines.nestedLine, Entry.text, hplain] using h

end ManifestAtlas
