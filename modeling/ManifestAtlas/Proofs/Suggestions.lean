import Mathlib
import ManifestAtlas.Proofs.DependencyEdges
import ManifestAtlas.Proofs.Lookups
import ManifestAtlas.Report.Select

/-!
# What a failed selection suggests

A selection looks for a module and then for a flow or a state machine in it.
It takes the first entry with an identifier, and when there is none it suggests
identifiers of the list that was searched.  There are three groups.

* Resemblance.  `resembles_iff` says which identifiers resemble an unknown one,
  and `offeredFor` which identifiers are offered because of that.
* Suggestions.  `SuggestsFrom` says what is shown of the offered identifiers.
  The same identifier right behind itself is left out, but one that comes back
  later is shown again; the suggestions are the first offered identifiers
  exactly if none comes back (`suggestsFrom_suggestionsFor`).
* Selecting.  `selectPart` is the shape of both selections, and `SelectsPart`
  says when each outcome occurs.

`scatteredManifest` has an identifier that is suggested twice.
-/

namespace ManifestAtlas

/-! ## Resemblance -/

theorem occursIn_iff {needle text : List Char} :
    occursIn needle text = true ↔ needle <:+: text := by
  induction text with
  | nil => simp [occursIn]
  | cons c text ih =>
    rw [occursIn, Bool.or_eq_true, List.isPrefixOf_iff_prefix, ih, List.infix_cons_iff]

theorem lowerChar_ne_nil (c : Char) : lowerChar c ≠ [] := by
  unfold lowerChar
  split_ifs <;> exact List.cons_ne_nil _ _

theorem lowerFrom_eq_nil_iff {before text : List Char} :
    lowerFrom before text = [] ↔ text = [] := by
  cases text with
  | nil => simp [lowerFrom]
  | cons c text =>
    simp only [lowerFrom, List.append_eq_nil_iff, List.cons_ne_nil, iff_false, not_and]
    intro hlower
    split_ifs at hlower
    exact absurd hlower (lowerChar_ne_nil c)

/-- One of two identifiers contains the other, whatever the case of letters. -/
def Resembles (wanted id : String) : Prop :=
  lowerCase wanted.toList <:+: lowerCase id.toList ∨
    lowerCase id.toList <:+: lowerCase wanted.toList

instance (wanted : String) : DecidablePred (Resembles wanted) :=
  fun id => inferInstanceAs (Decidable (lowerCase wanted.toList <:+: lowerCase id.toList ∨
    lowerCase id.toList <:+: lowerCase wanted.toList))

theorem resembles_iff {wanted id : String} :
    resembles wanted id = true ↔ wanted ≠ "" ∧ Resembles wanted id := by
  have hempty : lowerCase wanted.toList = [] ↔ wanted = "" := by
    rw [lowerCase, lowerFrom_eq_nil_iff, String.toList_eq_nil_iff]
  simp only [resembles, Resembles, Bool.and_eq_true, Bool.or_eq_true, occursIn_iff,
    Bool.not_eq_true', ← Bool.not_eq_true, List.isEmpty_iff, hempty, ne_eq]

/-- The identifiers that may be shown in place of an unknown one: those that resemble it, or else
all of a short list. -/
def offeredFor (ids : List String) (wanted : String) : List String :=
  if wanted ≠ "" ∧ ∃ id ∈ ids, Resembles wanted id then ids.filter (Resembles wanted ·)
  else if ids.length ≤ 5 then ids else []

theorem offeredFor_sublist (ids : List String) (wanted : String) :
    (offeredFor ids wanted).Sublist ids := by
  unfold offeredFor
  split_ifs
  · exact List.filter_sublist
  · exact List.Sublist.refl ids
  · exact List.nil_sublist ids

/-! ## Suggestions -/

theorem withoutRuns_eq (ids : List String) : withoutRuns ids = ids.destutter (· ≠ ·) := by
  fun_induction withoutRuns ids with
  | case1 => rfl
  | case2 id => rfl
  | case3 y rest ih => rw [List.destutter_cons_cons, if_neg (by simp), ih, List.destutter_cons']
  | case4 x y rest hne ih => rw [List.destutter_cons_cons, if_pos hne, ih, List.destutter_cons']

/-- What is left out stands right behind itself, so that it has come before. -/
theorem distinct_withoutRuns (ids : List String) : distinct (withoutRuns ids) = distinct ids := by
  fun_induction withoutRuns ids with
  | case1 => rfl
  | case2 id => rfl
  | case3 y rest ih => rw [ih]; simp [distinct]
  | case4 x y rest hne ih => rw [distinct, ih, ← distinct]

/-- A list whose beginning has no repeats begins with its first occurrences. -/
theorem take_nodup_iff {α : Type} [DecidableEq α] {xs : List α} {n : Nat} :
    (xs.take n).Nodup ↔ xs.take n = (distinct xs).take n := by
  constructor
  · intro h
    rcases le_total n xs.length with hlen | hlen
    · have hdistinct :
          distinct xs = xs.take n ++ (distinct (xs.drop n)).filter (· ∉ xs.take n) := by
        conv_lhs => rw [← List.take_append_drop n xs, distinct_append, distinct_of_nodup h]
      rw [hdistinct, List.take_left' (List.length_take_of_le hlen)]
    · rw [List.take_of_length_le hlen] at h ⊢
      rw [distinct_of_nodup h, List.take_of_length_le hlen]
  · intro h
    rw [h]
    exact (nodup_distinct xs).sublist (List.take_sublist _ _)

theorem suggestionsFor_eq (ids : List String) (wanted : String) :
    suggestionsFor ids wanted = (withoutRuns (offeredFor ids wanted)).take 5 := by
  rw [suggestionsFor, offeredFor, maxSuggestions]
  by_cases hsimilar : wanted ≠ "" ∧ ∃ id ∈ ids, Resembles wanted id
  · have hfilter : ids.filter (resembles wanted) = ids.filter (Resembles wanted ·) := by
      refine List.filter_congr fun id _ => Bool.eq_iff_iff.2 ?_
      rw [resembles_iff, decide_eq_true_iff, and_iff_right hsimilar.1]
    obtain ⟨id, hid, hresembles⟩ := hsimilar.2
    have hmem : id ∈ ids.filter (Resembles wanted ·) :=
      List.mem_filter.2 ⟨hid, decide_eq_true hresembles⟩
    have hsome : (ids.filter (Resembles wanted ·)).isEmpty = false :=
      List.isEmpty_eq_false_iff.2 (List.ne_nil_of_mem hmem)
    simp only [hfilter, hsome, if_pos hsimilar, Bool.false_eq_true, if_false]
  · have hnone : ids.filter (resembles wanted) = [] := by
      refine List.filter_eq_nil_iff.2 fun id hid hresembles => hsimilar ?_
      obtain ⟨hwanted, hresembles⟩ := resembles_iff.1 hresembles
      exact ⟨hwanted, id, hid, hresembles⟩
    simp only [hnone, if_neg hsimilar, List.isEmpty_nil, if_true]

/-- What is shown in place of an unknown identifier: the first identifiers that are offered, where
one right behind itself is left out.  They are the first different ones exactly if none of them
comes back. -/
structure SuggestsFrom (ids : List String) (wanted : String) (shown : List String) : Prop where
  shown_eq : shown = ((offeredFor ids wanted).destutter (· ≠ ·)).take 5
  few : shown.length ≤ 5
  ordered : shown.Sublist ids
  other : wanted ∉ shown
  nodup_iff : shown.Nodup ↔ shown = (distinct (offeredFor ids wanted)).take 5
  nodup_of_nodup : ids.Nodup → shown.Nodup

theorem suggestsFrom_suggestionsFor {ids : List String} {wanted : String} (h : wanted ∉ ids) :
    SuggestsFrom ids wanted (suggestionsFor ids wanted) := by
  have hsublist : (suggestionsFor ids wanted).Sublist ids := by
    rw [suggestionsFor_eq, withoutRuns_eq]
    exact (List.take_sublist _ _).trans
      ((List.destutter_sublist _ _).trans (offeredFor_sublist ids wanted))
  refine ⟨?_, ?_, hsublist, fun hmem => h (hsublist.subset hmem), ?_,
    fun hids => hids.sublist hsublist⟩
  · rw [suggestionsFor_eq, withoutRuns_eq]
  · rw [suggestionsFor_eq]
    exact List.length_take_le _ _
  · rw [suggestionsFor_eq, take_nodup_iff, distinct_withoutRuns]

/-! ## Selecting -/

/-- An entry is the first one with an identifier. -/
def IsFirst {α : Type} (key : α → String) (entries : List α) (id : String) (entry : α) : Prop :=
  key entry = id ∧ ∃ before after, entries = before ++ entry :: after ∧ id ∉ before.map key

theorem IsFirst.mem {α : Type} {key : α → String} {entries : List α} {id : String} {entry : α}
    (h : IsFirst key entries id entry) : entry ∈ entries := by
  obtain ⟨-, before, after, rfl, -⟩ := h
  exact List.mem_append_right _ List.mem_cons_self

theorem find?_eq_some_iff_isFirst {α : Type} {key : α → String} {entries : List α} {id : String}
    {entry : α} : entries.find? (key · == id) = some entry ↔ IsFirst key entries id entry := by
  simp [List.find?_eq_some_iff_append, IsFirst]

/-- The outcome of looking for a module and then for a part of it. -/
def selectPart {β : Type} (manifest : Manifest) (parts : Module → List β) (key : β → String)
    (unknownPart : List String → SelectError) (moduleId partId : String) :
    Except SelectError (Module × β) :=
  match manifest.modules.find? (·.id == moduleId) with
  | none => .error (.unknownModule moduleId
      (suggestionsFor (manifest.modules.map Module.id) moduleId))
  | some module =>
    match (parts module).find? (key · == partId) with
    | none => .error (unknownPart (suggestionsFor ((parts module).map key) partId))
    | some part => .ok (module, part)

theorem selectFlow_eq (manifest : Manifest) (moduleId flowId : String) :
    selectFlow manifest moduleId flowId =
      selectPart manifest Module.flows Flow.id (.unknownFlow moduleId flowId) moduleId flowId := by
  rw [selectFlow, selectModule, selectPart, Manifest.module?]
  cases manifest.modules.find? (·.id == moduleId) with
  | none => rfl
  | some module =>
    simp only [bind, Except.bind, Module.flow?]
    cases module.flows.find? (·.id == flowId) <;> rfl

theorem selectStateMachine_eq (manifest : Manifest) (moduleId machineId : String) :
    selectStateMachine manifest moduleId machineId =
      selectPart manifest Module.stateMachines StateMachine.id
        (.unknownStateMachine moduleId machineId) moduleId machineId := by
  rw [selectStateMachine, selectModule, selectPart, Manifest.module?]
  cases manifest.modules.find? (·.id == moduleId) with
  | none => rfl
  | some module =>
    simp only [bind, Except.bind, Module.stateMachine?]
    cases module.stateMachines.find? (·.id == machineId) <;> rfl

section

variable {β : Type} {manifest : Manifest} {parts : Module → List β} {key : β → String}
  {unknownPart : List String → SelectError} {moduleId partId : String}

theorem selectPart_eq_ok_iff {module : Module} {part : β} :
    selectPart manifest parts key unknownPart moduleId partId = .ok (module, part) ↔
      IsFirst Module.id manifest.modules moduleId module ∧
        IsFirst key (parts module) partId part := by
  rw [← find?_eq_some_iff_isFirst, ← find?_eq_some_iff_isFirst, selectPart]
  cases manifest.modules.find? (·.id == moduleId) with
  | none => simp
  | some found =>
    simp only [Option.some.injEq]
    constructor
    · intro h
      cases hpart : (parts found).find? (key · == partId) with
      | none =>
        rw [hpart] at h
        cases h
      | some entry =>
        rw [hpart] at h
        cases h
        exact ⟨rfl, hpart⟩
    · rintro ⟨rfl, hpart⟩
      rw [hpart]

theorem selectPart_eq_error_iff {e : SelectError} :
    selectPart manifest parts key unknownPart moduleId partId = .error e ↔
      (moduleId ∉ manifest.modules.map Module.id ∧
        e = .unknownModule moduleId (suggestionsFor (manifest.modules.map Module.id) moduleId)) ∨
      ∃ module, IsFirst Module.id manifest.modules moduleId module ∧
        partId ∉ (parts module).map key ∧
        e = unknownPart (suggestionsFor ((parts module).map key) partId) := by
  simp only [← find?_eq_some_iff_isFirst]
  rw [← find?_key_eq_none_iff, selectPart]
  cases manifest.modules.find? (·.id == moduleId) with
  | none => simp [eq_comm]
  | some found =>
    simp only [reduceCtorEq, false_and, false_or, Option.some.injEq, exists_eq_left',
      ← find?_key_eq_none_iff]
    cases (parts found).find? (key · == partId) <;> simp [eq_comm]

/-- Where identifiers are unique, every part is selected by those of its module and of its own. -/
theorem selectPart_of_mem {module : Module} {part : β}
    (hmodules : (manifest.modules.map Module.id).Nodup) (hparts : ((parts module).map key).Nodup)
    (hmodule : module ∈ manifest.modules) (hpart : part ∈ parts module) :
    selectPart manifest parts key unknownPart module.id (key part) = .ok (module, part) := by
  rw [selectPart_eq_ok_iff, ← find?_eq_some_iff_isFirst, ← find?_eq_some_iff_isFirst]
  exact ⟨(find?_key_eq_some_iff hmodules).2 ⟨hmodule, rfl⟩,
    (find?_key_eq_some_iff hparts).2 ⟨hpart, rfl⟩⟩

/-- Identifiers that lead to a part, or the reason why there is none. -/
theorem selectPart_cases (manifest : Manifest) (parts : Module → List β) (key : β → String)
    (unknownPart : List String → SelectError) (moduleId partId : String) :
    (∃ module ∈ manifest.modules, ∃ part ∈ parts module, module.id = moduleId ∧ key part = partId ∧
      selectPart manifest parts key unknownPart moduleId partId = .ok (module, part)) ∨
    (moduleId ∉ manifest.modules.map Module.id ∧
      selectPart manifest parts key unknownPart moduleId partId = .error (.unknownModule moduleId
        (suggestionsFor (manifest.modules.map Module.id) moduleId))) ∨
    ∃ module ∈ manifest.modules, module.id = moduleId ∧ partId ∉ (parts module).map key ∧
      selectPart manifest parts key unknownPart moduleId partId =
        .error (unknownPart (suggestionsFor ((parts module).map key) partId)) := by
  cases hselect : selectPart manifest parts key unknownPart moduleId partId with
  | ok selected =>
    obtain ⟨hmodule, hpart⟩ := selectPart_eq_ok_iff.1 hselect
    exact .inl ⟨selected.1, hmodule.mem, selected.2, hpart.mem, hmodule.1, hpart.1, rfl⟩
  | error e =>
    rcases selectPart_eq_error_iff.1 hselect with ⟨hmodule, rfl⟩ | ⟨module, hmodule, hpart, rfl⟩
    · exact .inr (.inl ⟨hmodule, rfl⟩)
    · exact .inr (.inr ⟨module, hmodule.mem, hmodule.1, hpart, rfl⟩)

end

/-- A selection by two identifiers: the first module with the one and the first part of it with the
other, or an error that names what is missing and suggests identifiers of the list searched. -/
structure SelectsPart {β : Type} (manifest : Manifest) (parts : Module → List β) (key : β → String)
    (unknownPart : List String → SelectError) (moduleId partId : String)
    (outcome : Except SelectError (Module × β)) : Prop where
  ok_iff : ∀ module part, outcome = .ok (module, part) ↔
    IsFirst Module.id manifest.modules moduleId module ∧ IsFirst key (parts module) partId part
  unknownModule_iff : (∃ shown, outcome = .error (.unknownModule moduleId shown)) ↔
    moduleId ∉ manifest.modules.map Module.id
  unknownPart_iff : (∃ shown, outcome = .error (unknownPart shown)) ↔
    ∃ module, IsFirst Module.id manifest.modules moduleId module ∧ partId ∉ (parts module).map key
  error_cases : ∀ e, outcome = .error e →
    (∃ shown, e = .unknownModule moduleId shown) ∨ ∃ shown, e = unknownPart shown
  unknownModule_suggests : ∀ shown, outcome = .error (.unknownModule moduleId shown) →
    SuggestsFrom (manifest.modules.map Module.id) moduleId shown
  unknownPart_suggests : ∀ shown, outcome = .error (unknownPart shown) →
    ∃ module, IsFirst Module.id manifest.modules moduleId module ∧
      SuggestsFrom ((parts module).map key) partId shown

theorem selectsPart_selectPart {β : Type} (manifest : Manifest) (parts : Module → List β)
    (key : β → String) {unknownPart : List String → SelectError} (moduleId partId : String)
    (hinj : Function.Injective unknownPart)
    (hne : ∀ shown id others, unknownPart shown ≠ .unknownModule id others) :
    SelectsPart manifest parts key unknownPart moduleId partId
      (selectPart manifest parts key unknownPart moduleId partId) where
  ok_iff _ _ := selectPart_eq_ok_iff
  unknownModule_iff := by
    simp only [selectPart_eq_error_iff, (hne _ _ _).symm, and_false, exists_false, or_false,
      SelectError.unknownModule.injEq, true_and, exists_and_left, exists_eq, and_true]
  unknownPart_iff := by
    simp only [selectPart_eq_error_iff, hne, and_false, false_or, hinj.eq_iff]
    constructor
    · rintro ⟨shown, module, hmodule, hpart, -⟩
      exact ⟨module, hmodule, hpart⟩
    · rintro ⟨module, hmodule, hpart⟩
      exact ⟨_, module, hmodule, hpart, rfl⟩
  error_cases e he := by
    rcases selectPart_eq_error_iff.1 he with ⟨_, rfl⟩ | ⟨module, _, _, rfl⟩
    · exact .inl ⟨_, rfl⟩
    · exact .inr ⟨_, rfl⟩
  unknownModule_suggests shown he := by
    rcases selectPart_eq_error_iff.1 he with ⟨hmodule, heq⟩ | ⟨module, _, _, heq⟩
    · cases heq
      exact suggestsFrom_suggestionsFor hmodule
    · exact absurd heq.symm (hne _ _ _)
  unknownPart_suggests shown he := by
    rcases selectPart_eq_error_iff.1 he with ⟨_, heq⟩ | ⟨module, hmodule, hpart, heq⟩
    · exact absurd heq (hne _ _ _)
    · rw [hinj heq]
      exact ⟨module, hmodule, suggestsFrom_suggestionsFor hpart⟩

/-- Both selections take the first match, fail with the error of what is missing, and suggest the
first identifiers that are offered; these are the first different ones exactly if no identifier
comes back among them. -/
theorem selections_suggest_offered (manifest : Manifest) (moduleId partId : String) :
    SelectsPart manifest Module.flows Flow.id (.unknownFlow moduleId partId) moduleId partId
      (selectFlow manifest moduleId partId) ∧
    SelectsPart manifest Module.stateMachines StateMachine.id
      (.unknownStateMachine moduleId partId) moduleId partId
      (selectStateMachine manifest moduleId partId) := by
  rw [selectFlow_eq, selectStateMachine_eq]
  constructor
  · refine selectsPart_selectPart _ _ _ _ _ ?_ nofun
    exact fun shown others h => (SelectError.unknownFlow.inj h).2.2
  · refine selectsPart_selectPart _ _ _ _ _ ?_ nofun
    exact fun shown others h => (SelectError.unknownStateMachine.inj h).2.2

/-- Modules with nothing in them, two of them with one identifier. -/
def scatteredManifest : Manifest where
  project := ⟨"Shop", none, none, none, none⟩
  modules := ["b", "c", "b"].map fun id => ⟨id, id, "", [], [], [], [], [], [], []⟩
  entities := []
  dataModels := []
  glossary := .empty
  changelog := []

/-- The identifier that comes back is suggested twice, although it is meant to be shown once. -/
theorem scatteredManifest_suggests_twice :
    let ids := scatteredManifest.modules.map Module.id
    selectFlow scatteredManifest "a" "f" = .error (.unknownModule "a" ["b", "c", "b"]) ∧
      ¬ ["b", "c", "b"].Nodup ∧ (distinct (offeredFor ids "a")).take 5 = ["b", "c"] := by
  intro ids
  have hnone : scatteredManifest.module? "a" = none := by decide
  have hshown : suggestionsFor ids "a" = ["b", "c", "b"] := by decide +kernel
  refine ⟨?_, by decide, by decide +kernel⟩
  rw [selectFlow, selectModule, hnone, ← hshown]
  rfl

end ManifestAtlas
