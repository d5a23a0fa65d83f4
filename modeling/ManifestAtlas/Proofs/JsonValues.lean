import ManifestAtlas.Json.Value
import ManifestAtlas.Proofs.JsonReading
import Mathlib.Data.List.Forall2

/-!
# Reading values of any shape

A text that follows the grammar need not have a value: a number may be out of
range, a string may mean nothing, and only so many brackets may be open inside
each other.  `Tree.value?` is the value of a tree under these limits, and
`HoldsValue` relates a text to it.  The reader of values reads exactly that
(`reads_valueWithin`), and so does reading a whole text
(`HoldsValue.exists_ok_value`).
-/

namespace ManifestAtlas.Json

/-- The value of a tree that is neither an array nor an object. -/
def Tree.scalar? : Tree → Option Value
  | .null => some .null
  | .boolean value => some (.boolean value)
  | .number n => n.number?.toOption.map .number
  | .string pieces => (Json.text? pieces).map .string
  | .array _ | .object _ => none

/-- The value of a tree, if at most `depth` brackets are open inside each other, all numbers are in
range and all strings and keys mean something. -/
def Tree.value? : (depth : Nat) → Tree → Option Value
  | depth + 1, .array ts => (ts.mapM (Tree.value? depth)).map .array
  | depth + 1, .object ms =>
    ((ms.mapM member?).bind (List.mapM fun m => (Tree.value? depth m.2).map (Prod.mk m.1))).map
      .object
  | _, t => t.scalar?

theorem Tree.value?_zero (t : Tree) : t.value? 0 = t.scalar? := by
  rw [Tree.value?]
  · simp
  · simp

/-- Members that are collected in front of each other are all there, the last one first. -/
theorem foldlM_cons_eq {β γ : Type} (f : β → Option γ) (ms : List (String × β))
    (state : List (String × γ)) :
    ms.foldlM (fun s m => (f m.2).map fun v => (m.1, v) :: s) state =
      (ms.mapM fun m => (f m.2).map (Prod.mk m.1)).map fun all => all.reverse ++ state := by
  induction ms generalizing state with
  | nil => rfl
  | cons m ms ih =>
    cases hm : f m.2 with
    | none => simp [hm]
    | some v =>
      simp only [List.foldlM_cons, List.mapM_cons, hm, Option.map_some, Option.bind_eq_bind,
        Option.bind_some, ih]
      cases ms.mapM fun m => (f m.2).map (Prod.mk m.1) <;> simp

/-- A value that opens no bracket is read by its first character. -/
theorem outcome_scalar {bound : Nat} {t : Tree} {body rest more : List Char} {c : Char}
    (hbody : t.Spelled body) (hrest : StopsNumber rest) (hword : body ++ rest = c :: more)
    (hc : t.Opens c) (hbracket : c ≠ '[' ∧ c ≠ '\x7b') (hr : more.length < bound) :
    outcome (scalar c more hr) = t.scalar?.map fun v => (v, rest) := by
  cases t with
  | null =>
    obtain rfl : body = 'n' :: "ull".toList := hbody
    obtain ⟨rfl, rfl⟩ := List.cons.inj hword
    exact outcome_literal Value.null "ull".toList rest hr
  | boolean value =>
    cases value with
    | true =>
      obtain rfl : body = 't' :: "rue".toList := hbody
      obtain ⟨rfl, rfl⟩ := List.cons.inj hword
      exact outcome_literal (Value.boolean true) "rue".toList rest hr
    | false =>
      obtain rfl : body = 'f' :: "alse".toList := hbody
      obtain ⟨rfl, rfl⟩ := List.cons.inj hword
      exact outcome_literal (Value.boolean false) "alse".toList rest hr
  | number n =>
    obtain ⟨d, tail, rfl, hd, hread⟩ := outcome_numeral .eofValue hbody hrest
    rw [List.cons_append] at hword
    obtain ⟨rfl, rfl⟩ := List.cons.inj hword
    have hne : ∀ x : Char, opensNumeral x = false → d ≠ x := by
      rintro x hx rfl
      simp [hd] at hx
    obtain ⟨_, hnumeral⟩ := outcome_eq_some.1 (hread hr)
    simp only [scalar, hne 'n' (by decide), hne 't' (by decide), hne 'f' (by decide),
      hne '"' (by decide), hd, if_true, if_false, outcome_map, number, hnumeral, bind, Except.bind,
      Tree.scalar?]
    cases n.number? <;> simp [Except.toOption]
  | string pieces =>
    have hstring : IsStringText pieces body := hbody
    rw [hstring.2, List.cons_append] at hword
    obtain ⟨rfl, hmore⟩ := List.cons.inj hword
    rw [List.append_assoc, List.singleton_append] at hmore
    subst hmore
    simp [scalar, hstring.outcome_stringRest, Tree.scalar?, Function.comp_def]
  | array ts => exact absurd hc hbracket.1
  | object ms => exact absurd hc hbracket.2

/-- The reader of values reads the value of a tree. -/
theorem reads_valueWithin (depth : Nat) : Reads (valueWithin depth) (Tree.value? depth) := by
  induction depth with
  | zero =>
    constructor
    intro t body space rest hbody hspace hrest
    obtain ⟨c, more, hr, hahead, hword, hc⟩ := hbody.exists_ahead hspace rest
    rw [valueWithin, hahead, Tree.value?_zero]
    by_cases hbracket : c = '[' ∨ c = '\x7b'
    · have hnone : t.scalar? = none := by
        rcases hbracket with rfl | rfl
        · obtain ⟨ts, _, _, rfl, _⟩ := hc.exists_array hbody hword
          rfl
        · obtain ⟨ms, _, _, rfl, _⟩ := hc.exists_object hbody hword
          rfl
      simp [hbracket, hnone]
    · simp only [if_neg hbracket]
      exact outcome_scalar hbody hrest hword hc (not_or.1 hbracket) hr
  | succ depth ih =>
    constructor
    intro t body space rest hbody hspace hrest
    obtain ⟨c, more, hr, hahead, hword, hc⟩ := hbody.exists_ahead hspace rest
    rw [valueWithin, hahead]
    -- the first character tells the shape of the tree, and a bracket uses up one of the depth
    by_cases harray : c = '['
    · subst harray
      obtain ⟨ts, inside, hinside, rfl, rfl⟩ := hc.exists_array hbody hword
      have hread := outcome_entriesFrom ih ts hinside [] rest rfl (length_le_of_lt hr)
      simp only [if_true, outcome_map, entries, hread, Tree.value?]
      simp [Function.comp_def]
    · by_cases hobject : c = '\x7b'
      · subst hobject
        obtain ⟨ms, inside, hinside, rfl, rfl⟩ := hc.exists_object hbody hword
        have hread := outcome_membersFrom
          (fun (s : List (String × Value)) key => (ih.map fun v => (key, v) :: s).afterColon) ms
          hinside [] rest rfl (length_le_of_lt hr)
        simp only [harray, if_false, if_true, outcome_map, members, hread, Tree.value?,
          foldlM_cons_eq]
        cases ms.mapM member? with
        | none => rfl
        | some named => simp [Function.comp_def]
      · simp only [harray, hobject, if_false]
        have hvalue : t.value? (depth + 1) = t.scalar? := by
          cases t with
          | array ts => exact absurd hc harray
          | object ms => exact absurd hc hobject
          | _ => rfl
        rw [hvalue]
        exact outcome_scalar hbody hrest hword hc ⟨harray, hobject⟩ hr

/-! ## Texts that hold a value -/

/-- A list is mapped when all its entries are. -/
theorem mapM_eq_some_iff {β γ : Type} {f : β → Option γ} {bs : List β} {cs : List γ} :
    bs.mapM f = some cs ↔ List.Forall₂ (fun b c => f b = some c) bs cs := by
  induction bs generalizing cs with
  | nil => simp [eq_comm]
  | cons b bs ih =>
    rw [List.mapM_cons, List.forall₂_cons_left_iff]
    cases hb : f b with
    | none => simp
    | some c =>
      cases hbs : bs.mapM f with
      | none =>
        have hnone : ∀ more, ¬ List.Forall₂ (fun b c => f b = some c) bs more := fun more h => by
          simp [ih.2 h] at hbs
        simp [hnone]
      | some more =>
        have hmore : ∀ all, List.Forall₂ (fun b c => f b = some c) bs all ↔ more = all := fun all =>
          ih.symm.trans (by rw [hbs, Option.some_inj])
        simp [hmore, eq_comm]

/-- A list is mapped in two steps when it is mapped by both at once. -/
theorem exists_mapM_of_bind {β γ δ : Type} {f : β → Option γ} {g : γ → Option δ} {bs : List β}
    {ds : List δ} (h : bs.mapM (fun b => (f b).bind g) = some ds) :
    ∃ cs, bs.mapM f = some cs ∧ cs.mapM g = some ds := by
  simp only [mapM_eq_some_iff] at h ⊢
  induction h with
  | nil => exact ⟨[], .nil, .nil⟩
  | cons hb _ ih =>
    obtain ⟨c, hc, hd⟩ := Option.bind_eq_some_iff.1 hb
    obtain ⟨cs, hcs, hds⟩ := ih
    exact ⟨c :: cs, .cons hc hcs, .cons hd hds⟩

/-- A text holds a value: it follows the grammar, its numbers are in range, its strings mean
something, and at most `depth` brackets are open inside each other. -/
def HoldsValue (depth : Nat) (text : String) (v : Value) : Prop :=
  ∃ t : Tree, t.IsTextOf text.toList ∧ t.value? depth = some v

/-- A text is read as the value it holds, and nothing but space is left. -/
theorem HoldsValue.exists_ok_value {text : String} {v : Value} (h : HoldsValue maxDepth text v) :
    ∃ r, value text.toList = .ok r ∧ r.value = v ∧ ahead r.rest = .done := by
  obtain ⟨t, ⟨before, body, after, hbefore, hbody, hafter, htext⟩, hv⟩ := h
  have hend : StopsNumber after := by
    have hnil : StopsNumber [] := trivial
    simpa using hnil.space hafter
  have hread := (reads_valueWithin maxDepth).outcome_eq hbody hbefore hend
  rw [hv, ← htext] at hread
  obtain ⟨hr, hread⟩ := outcome_eq_some.1 hread
  exact ⟨_, hread, rfl, ahead_end hafter⟩

end ManifestAtlas.Json
