import ManifestAtlas.Json.Format
import ManifestAtlas.Proofs.JsonScanning

/-!
# Readers stay in their text

A reader takes its value off the front of a text, and looks at nothing else.  So
what it leaves is a rest of the text, and when it refuses the text, it has read
no more than there is: the number of unread bytes, from which the position of
the failure is computed, is at most that of the text.  `Reader.Stays` says both.

Every reader is put together from smaller ones, and each has one lemma here.  Of
the ways to refuse a text only one counts bytes on its own: a number out of
range is reported at the digit of the exponent that made it too large, some
digits before its end.  For that the readers of digits also keep account of how
many bytes they read (`byteLength_digits`).

Main statement: `Format.stays`.
-/

namespace ManifestAtlas.Json

variable {bound : Nat} {α β : Type}

/-! ## Rests of a text -/

theorem byteLength_append (a b : List Char) :
    byteLength (a ++ b) = byteLength a + byteLength b := by
  induction a with
  | nil => exact (Nat.zero_add _).symm
  | cons c a ih =>
    rw [List.cons_append, byteLength, byteLength, ih, Nat.add_assoc]

theorem byteLength_le_of_suffix {rest text : List Char} (h : rest <:+ text) :
    byteLength rest ≤ byteLength text := by
  obtain ⟨front, rfl⟩ := h
  rw [byteLength_append]
  exact Nat.le_add_left _ _

theorem skipSpace_suffix (text : List Char) : skipSpace text <:+ text := by
  fun_induction skipSpace text with
  | case1 => exact List.suffix_refl _
  | case2 c rest _ ih => exact ih.trans (List.suffix_cons c rest)
  | case3 => exact List.suffix_refl _

theorem suffix_of_ahead {text rest : List Char} {c : Char} {h : rest.length < text.length}
    (heq : ahead text = .next c rest h) : c :: rest <:+ text := by
  have hview := view_ahead text
  rw [heq] at hview
  have hskip := skipSpace_suffix text
  rwa [← hview] at hskip

theorem rest_suffix_of_ahead {text rest : List Char} {c : Char} {h : rest.length < text.length}
    (heq : ahead text = .next c rest h) : rest <:+ text :=
  (List.suffix_cons c rest).trans (suffix_of_ahead heq)

/-! ## Staying in a text -/

/-- A failure lies in a text: it leaves no more unread than there is. -/
def Failure.LiesIn (text : List Char) (failure : Failure) : Prop :=
  failure.unread ≤ byteLength text

/-- What came of reading a text stays in the text: a rest of it, or a failure that lies in it. -/
def StaysIn (text : List Char) : Except Failure (Read bound α) → Prop
  | .ok r => r.rest <:+ text
  | .error failure => failure.LiesIn text

/-- A reader stays in every text. -/
def Reader.Stays (reader : Reader α) : Prop :=
  ∀ text, StaysIn text (reader text)

namespace Failure

variable {text rest : List Char} {cause : Cause} {c : Char}

theorem liesIn_atEnd : (atEnd cause).LiesIn text :=
  Nat.zero_le _

theorem liesIn_before (h : rest <:+ text) : (before cause rest).LiesIn text :=
  byteLength_le_of_suffix h

theorem liesIn_on (h : c :: rest <:+ text) : (on cause c rest).LiesIn text :=
  Nat.le_trans (Nat.sub_le _ _) (byteLength_le_of_suffix h)

theorem LiesIn.mono {failure : Failure} (h : failure.LiesIn rest) (hs : rest <:+ text) :
    failure.LiesIn text :=
  Nat.le_trans h (byteLength_le_of_suffix hs)

end Failure

open Failure

namespace StaysIn

variable {text rest : List Char} {x : Except Failure (Read bound α)}

theorem mono (h : StaysIn rest x) (hs : rest <:+ text) : StaysIn text x := by
  cases x with
  | ok r => exact List.IsSuffix.trans h hs
  | error failure => exact LiesIn.mono h hs

theorem suffix_of_eq_ok {r : Read bound α} (h : StaysIn text x) (heq : x = .ok r) :
    r.rest <:+ text := by
  subst heq
  exact h

theorem liesIn_of_eq_error {failure : Failure} (h : StaysIn text x) (heq : x = .error failure) :
    failure.LiesIn text := by
  subst heq
  exact h

theorem map {f : α → β} (h : StaysIn text x) : StaysIn text (x.map (Read.map f)) := by
  cases x <;> exact h

theorem within {longer : Nat} {hle : bound ≤ longer} (h : StaysIn text x) :
    StaysIn text (x.map fun r => r.within hle) := by
  cases x <;> exact h

theorem bind {bound' : Nat} {f : Read bound α → Except Failure (Read bound' β)}
    (h : StaysIn text x) (hf : ∀ r : Read bound α, r.rest <:+ text → StaysIn text (f r)) :
    StaysIn text (x >>= f) := by
  cases x with
  | ok r => exact hf r h
  | error failure => exact h

end StaysIn

theorem Reader.Stays.map {reader : Reader α} (h : reader.Stays) (f : α → β) :
    (reader.map f).Stays :=
  fun text => (h text).map

/-- A reader that goes by the next character stays in its text if it does so from there on. -/
theorem staysIn_next {text : List Char} {early : Cause}
    {next : (c : Char) → (rest : List Char) → rest.length < text.length →
      Except Failure (Read bound α)} (h : ∀ c rest hc, StaysIn (c :: rest) (next c rest hc)) :
    StaysIn text (match ahead text with
      | .done => .error (.atEnd early)
      | .next c rest hc => next c rest hc) := by
  split
  · exact liesIn_atEnd
  · rename_i heq
    exact (h _ _ _).mono (suffix_of_ahead heq)

/-! ## Words and strings -/

theorem staysIn_literal (a : α) {word text : List Char} (h : text.length < bound) :
    StaysIn text (literal a word text h) := by
  induction word generalizing text with
  | nil => exact List.suffix_refl _
  | cons w word ih =>
    cases text with
    | nil => exact liesIn_atEnd
    | cons c rest =>
      rw [literal]
      split
      · exact (ih _).mono (List.suffix_cons c rest)
      · exact liesIn_on (List.suffix_refl _)

theorem stays_colon : colon.Stays := by
  intro text
  unfold colon
  split
  · rename_i heq
    exact rest_suffix_of_ahead heq
  · rename_i heq
    exact liesIn_on (suffix_of_ahead heq)
  · exact liesIn_atEnd

theorem stays_codeUnit : codeUnit.Stays := by
  intro text
  unfold codeUnit
  split
  · exact liesIn_atEnd
  · split
    · rename_i a b c d rest _
      split
      · exact ⟨[a, b, c, d], rfl⟩
      · exact Nat.sub_le _ _
    · exact Nat.sub_le _ _

theorem staysIn_pairMark {mark : Char} {text : List Char} (h : text.length ≤ bound) :
    StaysIn text (pairMark mark text h) := by
  cases text with
  | nil => exact liesIn_atEnd
  | cons c rest =>
    rw [pairMark]
    split
    · exact List.suffix_cons c rest
    · exact liesIn_on (List.suffix_refl _)

theorem stays_unicodeEscape : unicodeEscape.Stays := by
  intro text
  refine (stays_codeUnit text).bind fun first hfirst => ?_
  split
  · exact liesIn_before hfirst
  split
  · refine ((staysIn_pairMark _).mono hfirst).bind fun slash hslash => ?_
    refine ((staysIn_pairMark _).mono hslash).bind fun u hu => ?_
    refine ((stays_codeUnit u.rest).mono hu).bind fun second hsecond => ?_
    split
    · exact hsecond
    · exact liesIn_before hsecond
  · exact hfirst

theorem stays_escaped {short : Char → α} {unicode : Reader α} (h : unicode.Stays) :
    (escaped short unicode).Stays := by
  intro text
  cases text with
  | nil => exact liesIn_atEnd
  | cons c rest =>
    unfold escaped
    dsimp only
    split
    · exact List.suffix_cons c rest
    split
    · exact ((h rest).mono (List.suffix_cons c rest)).within
    · exact liesIn_on (List.suffix_refl _)

theorem staysIn_stringRest {before text : List Char} (h : text.length < bound) :
    StaysIn text (stringRest before text h) := by
  fun_induction stringRest before text h with
  | case1 => exact liesIn_atEnd
  | case2 => exact List.suffix_cons _ _
  | case3 before rest r hr _ _ _ _ ih =>
    have hrest := (stays_escaped stays_unicodeEscape rest).suffix_of_eq_ok hr
    exact ih.mono (hrest.trans (List.suffix_cons _ _))
  | case4 before rest e he =>
    have hliesIn := (stays_escaped stays_unicodeEscape rest).liesIn_of_eq_error he
    exact hliesIn.mono (List.suffix_cons _ _)
  | case5 => exact liesIn_before (List.suffix_cons _ _)
  | case6 before c rest _ _ _ _ _ _ ih => exact ih.mono (List.suffix_cons _ _)

theorem staysIn_skimString {text : List Char} (h : text.length < bound) :
    StaysIn text (skimString text h) := by
  have hunit : (codeUnit.map fun _ => ()).Stays := stays_codeUnit.map _
  fun_induction skimString text h with
  | case1 => exact liesIn_atEnd
  | case2 => exact List.suffix_cons _ _
  | case3 rest r hr _ _ _ _ ih =>
    have hrest := (stays_escaped hunit rest).suffix_of_eq_ok hr
    exact ih.mono (hrest.trans (List.suffix_cons _ _))
  | case4 rest e he =>
    have hliesIn := (stays_escaped hunit rest).liesIn_of_eq_error he
    exact hliesIn.mono (List.suffix_cons _ _)
  | case5 => exact liesIn_before (List.suffix_refl _)
  | case6 c rest _ _ _ _ _ _ ih => exact ih.mono (List.suffix_cons _ _)

/-! ## Numbers -/

/-- Digits are read off the front of a text, and each of them takes up a byte. -/
theorem byteLength_digits {text : List Char} (h : text.length < bound) :
    (digits text h).rest <:+ text ∧
      byteLength (digits text h).rest + (digits text h).value.length ≤ byteLength text := by
  induction text with
  | nil => exact ⟨List.suffix_refl _, Nat.le_refl _⟩
  | cons c rest ih =>
    rw [digits]
    split
    · obtain ⟨hrest, hbytes⟩ := ih (length_lt_of_cons h)
      have hc := one_le_byteLength_cons c rest
      refine ⟨hrest.trans (List.suffix_cons c rest), ?_⟩
      simp only [Read.map, List.length_cons]
      omega
    · exact ⟨List.suffix_refl _, Nat.le_refl _⟩

/-- What came of reading a text stays in the text, and at least `size` bytes were read for a
value. -/
def Accounts (size : α → Nat) (text : List Char) : Except Failure (Read bound α) → Prop
  | .ok r => r.rest <:+ text ∧ byteLength r.rest + size r.value ≤ byteLength text
  | .error failure => failure.LiesIn text

namespace Accounts

variable {text rest : List Char} {size : α → Nat} {x : Except Failure (Read bound α)}

theorem staysIn (h : Accounts size text x) : StaysIn text x := by
  cases x with
  | ok r => exact h.1
  | error failure => exact h

theorem mono (h : Accounts size rest x) (hs : rest <:+ text) : Accounts size text x := by
  cases x with
  | ok r => exact ⟨h.1.trans hs, Nat.le_trans h.2 (byteLength_le_of_suffix hs)⟩
  | error failure => exact LiesIn.mono h hs

theorem map {f : α → β} {size' : β → Nat} (hsize : ∀ a, size' (f a) = size a)
    (h : Accounts size text x) : Accounts size' text (x.map (Read.map f)) := by
  cases x with
  | ok r => exact ⟨h.1, by simpa only [Read.map, hsize] using h.2⟩
  | error failure => exact h

theorem bind {bound' : Nat} {size' : β → Nat} {f : Read bound α → Except Failure (Read bound' β)}
    (h : StaysIn text x) (hf : ∀ r : Read bound α, r.rest <:+ text → Accounts size' text (f r)) :
    Accounts size' text (x >>= f) := by
  cases x with
  | ok r => exact hf r h
  | error failure => exact h

end Accounts

theorem accounts_someDigits (early : Cause) {text : List Char} (h : text.length < bound) :
    Accounts List.length text (someDigits early text h) := by
  cases text with
  | nil => exact liesIn_atEnd
  | cons c rest =>
    rw [someDigits]
    split
    · obtain ⟨hrest, hbytes⟩ := byteLength_digits (length_lt_of_cons h)
      have hc := one_le_byteLength_cons c rest
      refine ⟨hrest.trans (List.suffix_cons c rest), ?_⟩
      simp only [Read.map, List.length_cons]
      omega
    · exact liesIn_on (List.suffix_refl _)

theorem staysIn_wholeDigits {c : Char} {rest : List Char} (h : rest.length < bound) :
    StaysIn (c :: rest) (wholeDigits c rest h) := by
  unfold wholeDigits
  split
  · exact liesIn_on (List.suffix_refl _)
  · split
    · split
      · exact liesIn_on (List.suffix_cons _ _)
      · exact List.suffix_cons _ _
    · exact List.suffix_cons _ _
  · exact (byteLength_digits h).1.trans (List.suffix_cons c rest)

theorem staysIn_fractionDigits (early : Cause) {text : List Char} (h : text.length < bound) :
    StaysIn text (fractionDigits early text h) := by
  unfold fractionDigits
  split
  · exact ((accounts_someDigits early _).staysIn.mono (List.suffix_cons _ _)).map
  · exact List.suffix_refl _

theorem accounts_exponentDigits (early : Cause) {text : List Char} (h : text.length < bound) :
    Accounts (fun e : Exponent => e.digits.length) text (exponentDigits early text h) := by
  unfold exponentDigits
  split
  · exact ((accounts_someDigits early _).mono (List.suffix_cons _ _)).map fun _ => rfl
  · exact ((accounts_someDigits early _).mono (List.suffix_cons _ _)).map fun _ => rfl
  · exact (accounts_someDigits early _).map fun _ => rfl

/-- The number of digits of an exponent, if there is one. -/
def exponentSize : Option Exponent → Nat
  | none => 0
  | some e => e.digits.length

theorem accounts_exponentPart (early : Cause) {text : List Char} (h : text.length < bound) :
    Accounts exponentSize text (exponentPart early text h) := by
  unfold exponentPart
  split
  · exact ((accounts_exponentDigits early _).mono (List.suffix_cons _ _)).map fun _ => rfl
  · exact ((accounts_exponentDigits early _).mono (List.suffix_cons _ _)).map fun _ => rfl
  · exact ⟨List.suffix_refl _, Nat.le_refl _⟩

theorem accounts_unsignedNumeral (early : Cause) (negative : Bool) {c : Char} {rest : List Char}
    (h : rest.length < bound) :
    Accounts (fun n : Numeral => exponentSize n.exponent) (c :: rest)
      (unsignedNumeral early negative c rest h) := by
  unfold unsignedNumeral
  refine .bind (staysIn_wholeDigits h) fun whole hwhole => ?_
  refine .bind ((staysIn_fractionDigits early _).mono hwhole) fun fraction hfraction => ?_
  have hexponent := (accounts_exponentPart early fraction.shorter).mono hfraction
  cases he : exponentPart early fraction.rest fraction.shorter with
  | error failure => exact hexponent.staysIn.liesIn_of_eq_error he
  | ok exponent =>
    rw [he] at hexponent
    exact hexponent

theorem accounts_numeral (early : Cause) {c : Char} {rest : List Char} (h : rest.length < bound) :
    Accounts (fun n : Numeral => exponentSize n.exponent) (c :: rest)
      (numeral early c rest h) := by
  unfold numeral
  split
  · split
    · exact liesIn_atEnd
    · exact (accounts_unsignedNumeral early true _).mono (List.suffix_cons _ _)
  · exact accounts_unsignedNumeral early false h

theorem le_length_of_exponentValue {e unseen : Nat} {ds : List Nat}
    (h : exponentValue e ds = .error unseen) : unseen ≤ ds.length := by
  induction ds generalizing e with
  | nil => cases h
  | cons d ds ih =>
    rw [exponentValue] at h
    split at h
    · exact Nat.le_succ_of_le (ih h)
    · cases h
      exact Nat.le_succ _

theorem eq_zero_of_inRange {number : α → Number} {a : Option α} {unseen : Nat}
    (h : inRange number a = .error unseen) : unseen = 0 := by
  cases a <;> cases h
  rfl

/-- Only digits of the exponent are not looked at. -/
theorem Numeral.le_exponentSize_of_number? {n : Numeral} {unseen : Nat}
    (h : n.number? = .error unseen) : unseen ≤ exponentSize n.exponent := by
  unfold Numeral.number? at h
  split at h
  · rw [eq_zero_of_inRange h]
    exact Nat.zero_le _
  unfold Numeral.double? at h
  dsimp only at h
  split at h
  · rw [eq_zero_of_inRange h]
    exact Nat.zero_le _
  · rename_i e hexponent
    rw [hexponent]
    split at h
    · rw [eq_zero_of_inRange h]
      exact Nat.zero_le _
    · rename_i hvalue
      split at h
      · cases h
        exact le_length_of_exponentValue hvalue
      · cases h

theorem staysIn_number {c : Char} {rest : List Char} (h : rest.length < bound) :
    StaysIn (c :: rest) (number c rest h) := by
  unfold number
  have hnumeral := accounts_numeral .eofValue (c := c) h
  cases hn : numeral .eofValue c rest h with
  | error failure => exact hnumeral.staysIn.liesIn_of_eq_error hn
  | ok n =>
    rw [hn] at hnumeral
    simp only [bind, Except.bind]
    split
    · exact hnumeral.1
    · rename_i hunseen
      exact Nat.le_trans (Nat.add_le_add_left (Numeral.le_exponentSize_of_number? hunseen) _)
        hnumeral.2

/-! ## Skipped values -/

theorem stays_skipKey : skipKey.Stays := by
  intro text
  unfold skipKey
  split
  · rename_i heq
    refine ((staysIn_skimString _).mono (rest_suffix_of_ahead heq)).bind fun key hkey => ?_
    exact ((stays_colon key.rest).mono hkey).within
  · rename_i heq
    exact liesIn_on (suffix_of_ahead heq)
  · exact liesIn_atEnd

theorem staysIn_skipScalar {c : Char} {rest : List Char} (h : rest.length < bound) :
    StaysIn (c :: rest) (skipScalar c rest h) := by
  have hrest : rest <:+ c :: rest := List.suffix_cons c rest
  unfold skipScalar
  split
  · exact (staysIn_literal _ _).mono hrest
  split
  · exact (staysIn_literal _ _).mono hrest
  split
  · exact (staysIn_literal _ _).mono hrest
  split
  · exact (staysIn_skimString _).mono hrest
  split
  · exact (accounts_numeral _ _).staysIn.map
  · exact liesIn_on (List.suffix_refl _)

theorem staysIn_skipFrom {stage : Stage} {frames : List Bracket} {text : List Char}
    (h : text.length ≤ bound) : StaysIn text (skipFrom stage frames text h) := by
  fun_induction skipFrom stage frames text h with
  | case1 => exact liesIn_atEnd
  | case2 frames text h c rest hc heq frame hopens ih => exact ih.mono (rest_suffix_of_ahead heq)
  | case3 frames text h c rest hc heq hopens e he =>
    exact ((staysIn_skipScalar hc).liesIn_of_eq_error he).mono (suffix_of_ahead heq)
  | case4 text h c rest hc heq hopens r hr =>
    exact ((staysIn_skipScalar hc).suffix_of_eq_ok hr).trans (suffix_of_ahead heq)
  | case5 text h c rest hc heq hopens r frame frames hr _ ih =>
    exact ih.mono (((staysIn_skipScalar hc).suffix_of_eq_ok hr).trans (suffix_of_ahead heq))
  | case6 frames text h e he => exact (stays_skipKey text).liesIn_of_eq_error he
  | case7 frames text h r hr _ ih => exact ih.mono ((stays_skipKey text).suffix_of_eq_ok hr)
  | case8 => exact liesIn_atEnd
  | case9 frames text h frame afterValue c rest hc heq _ ih =>
    exact ih.mono (rest_suffix_of_ahead heq)
  | case10 text h frame afterValue rest hc heq => exact rest_suffix_of_ahead heq
  | case11 text h frame afterValue rest hc outer frames heq _ ih =>
    exact ih.mono (rest_suffix_of_ahead heq)
  | case12 frames text h frame c rest hc heq => exact liesIn_on (suffix_of_ahead heq)
  | case13 frames text h frame afterValue c rest hc heq _ _ _ ih => exact ih

theorem stays_skip : skip.Stays :=
  fun text => staysIn_skipFrom (length_le_self text)

/-! ## Arrays and objects -/

/-- What an array goes on with stays in the text: the text of the next entry is a rest of it. -/
def TurnStaysIn (text : List Char) : Except Failure (Turn bound) → Prop
  | .ok (.close rest _) => rest <:+ text
  | .ok (.entry next _) => next <:+ text
  | .error failure => failure.LiesIn text

theorem turnStaysIn_nextEntry (first : Bool) (text : List Char) :
    TurnStaysIn text (nextEntry first text) := by
  unfold nextEntry
  split
  · exact liesIn_atEnd
  · rename_i c rest h heq
    have hrest := rest_suffix_of_ahead heq
    split
    · exact hrest
    split
    · exact List.suffix_refl _
    split
    · split
      · exact liesIn_atEnd
      · rename_i heq'
        split
        · exact liesIn_on ((suffix_of_ahead heq').trans hrest)
        · exact hrest
    · exact liesIn_on (suffix_of_ahead heq)

theorem liesIn_of_nextEntry {first : Bool} {text : List Char} {failure : Failure}
    (heq : nextEntry first text = .error failure) : failure.LiesIn text := by
  have hturn := turnStaysIn_nextEntry first text
  rw [heq] at hturn
  exact hturn

theorem suffix_of_nextEntry_close {first : Bool} {text rest : List Char}
    {h : rest.length < text.length} (heq : nextEntry first text = .ok (.close rest h)) :
    rest <:+ text := by
  have hturn := turnStaysIn_nextEntry first text
  rw [heq] at hturn
  exact hturn

theorem suffix_of_nextEntry_entry {first : Bool} {text next : List Char}
    {h : next.length ≤ text.length} (heq : nextEntry first text = .ok (.entry next h)) :
    next <:+ text := by
  have hturn := turnStaysIn_nextEntry first text
  rw [heq] at hturn
  exact hturn

theorem staysIn_entriesFrom {entry : Reader α} (hentry : entry.Stays) {first : Bool}
    {before : List α} {text : List Char} (h : text.length ≤ bound) :
    StaysIn text (entriesFrom entry first before text h) := by
  fun_induction entriesFrom entry first before text h with
  | case1 first before text h e heq => exact liesIn_of_nextEntry heq
  | case2 first before text h rest hr heq => exact suffix_of_nextEntry_close heq
  | case3 first before text h next hn heq e he =>
    exact ((hentry next).liesIn_of_eq_error he).mono (suffix_of_nextEntry_entry heq)
  | case4 first before text h next hn heq r hr _ ih =>
    exact ih.mono (((hentry next).suffix_of_eq_ok hr).trans (suffix_of_nextEntry_entry heq))

theorem staysIn_keyFrom {c : Char} {rest : List Char} (h : rest.length < bound) :
    StaysIn (c :: rest) (keyFrom c rest h) := by
  unfold keyFrom
  split
  · exact ((staysIn_stringRest _).mono (List.suffix_cons c rest)).map
  · exact liesIn_on (List.suffix_refl _)

theorem stays_nextKey (first : Bool) : (nextKey first).Stays := by
  intro text
  refine staysIn_next fun c rest h => ?_
  have hrest : rest <:+ c :: rest := List.suffix_cons c rest
  split
  · exact hrest
  split
  · exact staysIn_keyFrom h
  split
  · refine StaysIn.mono ?_ hrest
    refine staysIn_next fun d more hd => ?_
    split
    · exact liesIn_on (List.suffix_refl _)
    · exact staysIn_keyFrom _
  · exact liesIn_on (List.suffix_refl _)

theorem staysIn_membersFrom {member : α → String → Reader α}
    (hmember : ∀ state key, (member state key).Stays) {first : Bool} {state : α}
    {text : List Char} (h : text.length ≤ bound) :
    StaysIn text (membersFrom member first state text h) := by
  fun_induction membersFrom member first state text h with
  | case1 first state text h e he => exact (stays_nextKey first text).liesIn_of_eq_error he
  | case2 first state text h rest hr heq => exact (stays_nextKey first text).suffix_of_eq_ok heq
  | case3 first state text h key rest hk heq e he =>
    exact ((hmember state key rest).liesIn_of_eq_error he).mono
      ((stays_nextKey first text).suffix_of_eq_ok heq)
  | case4 first state text h key rest hk heq r hr _ ih =>
    exact ih.mono (((hmember state key rest).suffix_of_eq_ok hr).trans
      ((stays_nextKey first text).suffix_of_eq_ok heq))

theorem Reader.Stays.afterColon {reader : Reader α} (h : reader.Stays) :
    (afterColon reader).Stays := by
  intro text
  refine (stays_colon text).bind fun c hc => ?_
  refine ((h c.rest).mono hc).bind fun r hr => hr

/-! ## Codecs -/

theorem liesIn_mismatch (wanted : String) {c : Char} {rest : List Char} :
    (mismatch wanted c rest).LiesIn (c :: rest) := by
  have hrest : rest <:+ c :: rest := List.suffix_cons c rest
  unfold mismatch
  extract_lets name h
  have hname {found : Except Failure (Read (rest.length + 1) Found)}
      (hfound : StaysIn (c :: rest) found) : (name found).LiesIn (c :: rest) := by
    cases found with
    | ok r => exact liesIn_before hfound
    | error failure => exact hfound
  split
  · exact hname ((staysIn_literal _ _).mono hrest)
  split
  · exact hname ((staysIn_literal _ _).mono hrest)
  split
  · exact hname ((staysIn_literal _ _).mono hrest)
  split
  · exact hname ((staysIn_stringRest _).mono hrest).map
  split
  · exact hname (staysIn_number _).map
  split
  · exact liesIn_before (List.suffix_refl _)
  split
  · exact liesIn_before (List.suffix_refl _)
  · exact liesIn_on (List.suffix_refl _)

namespace Codec

theorem stays_text : text.read.Stays := by
  intro text
  refine staysIn_next fun c rest h => ?_
  split
  · exact (staysIn_stringRest _).mono (List.suffix_cons c rest)
  · exact liesIn_mismatch _

theorem stays_boolean : boolean.read.Stays := by
  intro text
  refine staysIn_next fun c rest h => ?_
  have hrest : rest <:+ c :: rest := List.suffix_cons c rest
  split
  · exact (staysIn_literal _ _).mono hrest
  split
  · exact (staysIn_literal _ _).mono hrest
  · exact liesIn_mismatch _

theorem stays_integer (wanted : String) (narrow? : Int → Option α) (widen : α → Int) :
    (integer wanted narrow? widen).read.Stays := by
  intro text
  refine staysIn_next fun c rest h => ?_
  split
  · refine (staysIn_number h).bind fun r hr => ?_
    split
    · split
      · exact hr
      · exact liesIn_before hr
    · exact liesIn_before hr
  · exact liesIn_mismatch _

theorem stays_list {entry : Codec α} (h : entry.read.Stays) : (list entry).read.Stays := by
  intro text
  refine staysIn_next fun c rest _ => ?_
  split
  · exact (staysIn_entriesFrom h _).mono (List.suffix_cons c rest)
  · exact liesIn_mismatch _

theorem stays_optional {inner : Codec α} (h : inner.read.Stays) :
    (optional inner).read.Stays := by
  intro text
  dsimp only [Codec.optional]
  split
  · rename_i heq
    exact (staysIn_literal _ _).mono (rest_suffix_of_ahead heq)
  · exact (h text).map

theorem staysIn_resolveName {names : List (String × α)} {text : List Char}
    {r : Read bound String} (h : r.rest <:+ text) : StaysIn text (resolveName names r) := by
  unfold resolveName
  split
  · exact h
  · exact liesIn_before h

theorem stays_readNull : readNull.Stays := by
  intro text
  refine staysIn_next fun c rest h => ?_
  split
  · exact (staysIn_literal _ _).mono (List.suffix_cons c rest)
  · exact liesIn_mismatch _

theorem stays_nextName (names : List (String × α)) : (nextName names).Stays := by
  intro text
  refine (stays_nextKey true text).bind fun key hkey => ?_
  split
  · exact staysIn_resolveName hkey
  -- the brace itself was read, and it takes up one byte
  · have hbrace : byteLength ('\x7d' :: key.rest) - 1 = byteLength key.rest :=
      Nat.add_sub_cancel_left 1 _
    exact Nat.le_trans (Nat.le_of_eq hbrace) (byteLength_le_of_suffix hkey)

theorem stays_readNamedNull (names : List (String × α)) : (readNamedNull names).Stays := by
  intro text
  refine (stays_nextName names text).bind fun name hname => ?_
  refine ((stays_readNull.afterColon name.rest).mono hname).bind fun unit hunit => ?_
  split
  · exact liesIn_atEnd
  · rename_i heq
    split
    · exact (rest_suffix_of_ahead heq).trans hunit
    · exact liesIn_before ((suffix_of_ahead heq).trans hunit)

theorem stays_choice (names : List (String × α)) (name : α → String) :
    (choice names name).read.Stays := by
  intro text
  refine staysIn_next fun c rest h => ?_
  have hrest : rest <:+ c :: rest := List.suffix_cons c rest
  split
  · exact ((staysIn_stringRest _).mono hrest).bind fun r hr => staysIn_resolveName hr
  split
  · exact ((stays_readNamedNull names _).mono hrest).within
  · exact liesIn_on (List.suffix_refl _)

theorem stays_keyed {σ : Type} (collection : Keyed σ α) {entry : Codec α}
    (h : entry.read.Stays) : (keyed collection entry).read.Stays := by
  intro text
  refine staysIn_next fun c rest _ => ?_
  split
  · exact (staysIn_membersFrom (fun before key => (h.map _).afterColon) _).mono
      (List.suffix_cons c rest)
  · exact liesIn_mismatch _

end Codec

/-! ## Records -/

theorem Failure.liesIn_pastObject {cause : Cause} {text : List Char} :
    (pastObject cause text).LiesIn text := by
  unfold pastObject
  split
  · exact liesIn_atEnd
  · rename_i heq
    split
    · exact liesIn_before (rest_suffix_of_ahead heq)
    · exact liesIn_before (suffix_of_ahead heq)

/-- The readers of all members stay in their text. -/
def Members.Stay : {αs : List Type} → Members αs → Prop
  | _, .nil => True
  | _, .cons member rest => member.codec.read.Stays ∧ rest.Stay

/-- The reader of a free member stays in its text. -/
def Target.Stays {σ : Type} : Target σ → Prop
  | .unknown | .taken => True
  | .free reader => reader.Stays

theorem Target.Stays.map {σ τ : Type} {target : Target σ} (h : target.Stays) (f : σ → τ) :
    (target.map f).Stays := by
  cases target with
  | unknown | taken => trivial
  | free reader => exact Reader.Stays.map h f

theorem Members.Stay.target {αs : List Type} {all : Members αs} (h : all.Stay)
    (slots : Slots αs) (key : String) : (all.target slots key).Stays := by
  induction all with
  | nil => trivial
  | cons member rest ih =>
    obtain ⟨slot, slots⟩ := slots
    by_cases hkey : member.key = key
    · cases slot with
      | some value =>
        have htarget : (Members.cons member rest).target (some value, slots) key = .taken :=
          if_pos hkey
        rw [htarget]
        trivial
      | none =>
        have htarget : (Members.cons member rest).target (none, slots) key =
            .free (member.codec.read.map fun value => (some value, slots)) := if_pos hkey
        rw [htarget]
        exact h.1.map _
    · have htarget : (Members.cons member rest).target (slot, slots) key =
          (rest.target slots key).map fun slots => (slot, slots) := if_neg hkey
      rw [htarget]
      exact (ih h.2 slots).map _

theorem Members.Stay.readMember {αs : List Type} {all : Members αs} (h : all.Stay)
    (slots : Slots αs) (key : String) : (readMember all slots key).Stays := by
  intro text
  have htarget := h.target slots key
  unfold Json.readMember
  split
  · exact (stays_skip.afterColon text).map
  · exact liesIn_pastObject
  · rename_i reader heq
    rw [heq] at htarget
    exact htarget.afterColon text

theorem staysIn_closeArray {text : List Char} (h : text.length ≤ bound) :
    StaysIn text (closeArray text h) := by
  refine staysIn_next fun c rest hc => ?_
  have hrest : rest <:+ c :: rest := List.suffix_cons c rest
  split
  · exact hrest
  split
  · refine StaysIn.mono ?_ hrest
    refine staysIn_next fun d more _ => ?_
    split <;> exact liesIn_on (List.suffix_refl _)
  · exact liesIn_on (List.suffix_refl _)

theorem Members.Stay.staysIn_readRow {record : String} {size : Nat} {αs : List Type}
    {all : Members αs} (hall : all.Stay) {index : Nat} {text : List Char}
    (h : text.length ≤ bound) : StaysIn text (readRow record size all index text h) := by
  induction all generalizing index text with
  | nil => exact staysIn_closeArray h
  | cons member rest ih =>
    unfold readRow
    split
    · rename_i heq
      exact liesIn_of_nextEntry heq
    · rename_i heq
      have hafter := suffix_of_nextEntry_close heq
      split
      · exact hafter
      · exact liesIn_before hafter
    · rename_i next _ heq
      have hnext := suffix_of_nextEntry_entry heq
      split
      · rename_i he
        exact ((hall.1 next).liesIn_of_eq_error he).mono hnext
      · rename_i hr
        exact ((ih hall.2 _).mono (((hall.1 next).suffix_of_eq_ok hr).trans hnext)).map

theorem Record.stays_codec {R : Type} {record : Record R} (h : record.members.Stay) :
    record.codec.read.Stays := by
  intro text
  refine staysIn_next fun c rest _ => ?_
  have hrest : rest <:+ c :: rest := List.suffix_cons c rest
  split
  · refine ((staysIn_membersFrom h.readMember _).mono hrest).bind fun r hr => ?_
    split
    · exact hr
    · exact liesIn_before hr
  split
  · exact ((h.staysIn_readRow _).mono hrest).map
  · exact liesIn_mismatch _

/-! ## Formats -/

mutual

/-- The reader for a format stays in its text. -/
theorem Format.stays : {α : Type} → (format : Format α) → format.codec.read.Stays
  | _, .text => Codec.stays_text
  | _, .boolean => Codec.stays_boolean
  | _, .integer wanted narrow? widen => Codec.stays_integer wanted narrow? widen
  | _, .choice names name => Codec.stays_choice names name
  | _, .list entry => Codec.stays_list entry.stays
  | _, .optional inner => Codec.stays_optional inner.stays
  | _, .keyed collection entry => Codec.stays_keyed collection entry.stays
  | _, .record _ fields _ _ _ _ => Record.stays_codec fields.stay

theorem Fields.stay : {αs : List Type} → (fields : Fields αs) → fields.members.Stay
  | _, .nil => trivial
  | _, .cons _ format _ _ rest => ⟨format.stays, rest.stay⟩

end

/-- A text that is refused as a whole is refused at a place in it. -/
theorem Reader.Stays.liesIn_of_readWhole {reader : Reader α} (h : reader.Stays) {text : String}
    {failure : Failure} (herror : readWhole reader text = .error failure) :
    failure.LiesIn text.toList := by
  have hreader := h text.toList
  unfold readWhole at herror
  cases hread : reader text.toList with
  | error e =>
    rw [hread] at herror
    cases herror
    exact hreader.liesIn_of_eq_error hread
  | ok r =>
    have hrest := hreader.suffix_of_eq_ok hread
    rw [hread] at herror
    simp only [bind, Except.bind] at herror
    split at herror
    · cases herror
    · rename_i heq
      cases herror
      exact (liesIn_on (suffix_of_ahead heq)).mono hrest

end ManifestAtlas.Json
