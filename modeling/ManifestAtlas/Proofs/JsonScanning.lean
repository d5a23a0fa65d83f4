import Mathlib.Data.Nat.Init
import ManifestAtlas.Json.Sequence
import ManifestAtlas.Proofs.JsonSyntax

/-!
# Reading single tokens

What the readers of a JSON text do on a text that follows the grammar, token by
token.  A reader says how much of the text it has left; `outcome` keeps what it
read and what is left of the text, and forgets why a text was refused.

There are three groups.

* Space.  `ahead` sees the first character behind it (`ahead_space`).
* Strings.  `outcome_stringRest` says that a string is read as what it means,
  and refused when it means nothing.
* Numbers.  A number has no closing mark, so what follows must not look like
  more of it (`StopsNumber`).  `outcome_numeral` says that a number is read
  digit by digit, and `Numeral.number?_eq_integer_iff` which numbers are
  integers.
-/

namespace ManifestAtlas.Json

variable {bound : Nat}

/-! ## What a reader returned -/

/-- The value that was read and the rest of the text, if the text was not refused. -/
def outcome {α : Type} : Except Failure (Read bound α) → Option (α × List Char)
  | .ok r => some (r.value, r.rest)
  | .error _ => none

section

variable {α β : Type} {x : Except Failure (Read bound α)}

@[simp] theorem outcome_ok (r : Read bound α) : outcome (.ok r) = some (r.value, r.rest) := rfl

@[simp] theorem outcome_error (e : Failure) :
    outcome (.error e : Except Failure (Read bound α)) = none := rfl

@[simp] theorem outcome_map (f : α → β) :
    outcome (x.map (Read.map f)) = (outcome x).map fun p => (f p.1, p.2) := by
  cases x <;> rfl

@[simp] theorem outcome_within {longer : Nat} (h : bound ≤ longer) :
    outcome (x.map fun r => r.within h) = outcome x := by
  cases x <;> rfl

theorem outcome_eq_some {a : α} {rest : List Char} :
    outcome x = some (a, rest) ↔ ∃ h, x = .ok ⟨a, rest, h⟩ := by
  cases x with
  | error e => simp
  | ok r =>
    obtain ⟨value, left, h⟩ := r
    simp only [outcome_ok, Option.some.injEq, Prod.mk.injEq, Except.ok.injEq, Read.mk.injEq]
    exact ⟨fun ⟨hvalue, hrest⟩ => ⟨hrest ▸ h, hvalue, hrest⟩, fun ⟨_, heq⟩ => heq⟩

theorem outcome_eq_none : outcome x = none ↔ ∃ e, x = .error e := by
  cases x <;> simp

end

/-! ## Space -/

theorem skipSpace_space {space : List Char} (h : IsSpace space) (text : List Char) :
    skipSpace (space ++ text) = skipSpace text := by
  induction space with
  | nil => rfl
  | cons c space ih =>
    rw [List.cons_append, skipSpace, if_pos (h c List.mem_cons_self)]
    exact ih fun x hx => h x (List.mem_cons_of_mem _ hx)

/-- The first character behind some space is the next one. -/
theorem ahead_space {space : List Char} (h : IsSpace space) {c : Char} (hc : isSpace c = false)
    (rest : List Char) : ∃ hr, ahead (space ++ c :: rest) = .next c rest hr := by
  have hskip : skipSpace (space ++ c :: rest) = c :: rest := by
    rw [skipSpace_space h, skipSpace, hc]
    rfl
  unfold ahead
  split
  · rename_i heq
    rw [hskip] at heq
    cases heq
  · rename_i d more heq
    obtain ⟨rfl, rfl⟩ := List.cons.inj (hskip.symm.trans heq)
    exact ⟨length_lt_of_skipSpace hskip, rfl⟩

/-- Behind the space at the end of a text there is nothing. -/
theorem ahead_end {space : List Char} (h : IsSpace space) : ahead space = .done := by
  have hskip : skipSpace space = [] := by
    rw [← List.append_nil space, skipSpace_space h]
    rfl
  unfold ahead
  split
  · rfl
  · rename_i heq
    rw [hskip] at heq
    cases heq

/-- A word is read letter by letter. -/
theorem outcome_literal {α : Type} (value : α) (word rest : List Char)
    (h : (word ++ rest).length < bound) :
    outcome (literal value word (word ++ rest) h) = some (value, rest) := by
  induction word with
  | nil => rfl
  | cons w word ih =>
    simp only [List.cons_append, literal, if_true]
    exact ih _

/-! ## Strings -/

theorem one_le_byteLength_cons (c : Char) (rest : List Char) :
    byteLength rest + 1 ≤ byteLength (c :: rest) := by
  have := Char.utf8Size_pos c
  simp only [byteLength]
  omega

theorem outcome_codeUnit (a b c d : Char) (rest : List Char) :
    outcome (codeUnit (a :: b :: c :: d :: rest)) =
      (codeUnit? a b c d).map fun unit => (unit, rest) := by
  have hlong : ¬ byteLength (a :: b :: c :: d :: rest) < 4 := by
    have h1 := one_le_byteLength_cons a (b :: c :: d :: rest)
    have h2 := one_le_byteLength_cons b (c :: d :: rest)
    have h3 := one_le_byteLength_cons c (d :: rest)
    have h4 := one_le_byteLength_cons d rest
    omega
  unfold codeUnit
  rw [if_neg hlong]
  cases hunit : codeUnit? a b c d <;> simp [hunit]

section

variable {a b c d : Char} {unit : Nat}

theorem codeUnit_eq (hunit : codeUnit? a b c d = some unit) (rest : List Char) :
    ∃ h, codeUnit (a :: b :: c :: d :: rest) = .ok ⟨unit, rest, h⟩ := by
  rw [← outcome_eq_some, outcome_codeUnit, hunit]
  rfl

/-- A code unit that is no surrogate is a character. -/
theorem outcome_unicodeEscape_single (hunit : codeUnit? a b c d = some unit)
    (hlower : isLowerSurrogate unit = false) (hupper : isUpperSurrogate unit = false)
    (rest : List Char) :
    outcome (unicodeEscape (a :: b :: c :: d :: rest)) = some (Char.ofNat unit, rest) := by
  obtain ⟨_, hread⟩ := codeUnit_eq hunit rest
  simp [unicodeEscape, hread, bind, Except.bind, hlower, hupper]

/-- A lower surrogate may not come first. -/
theorem outcome_unicodeEscape_lower (hunit : codeUnit? a b c d = some unit)
    (hlower : isLowerSurrogate unit = true) (rest : List Char) :
    outcome (unicodeEscape (a :: b :: c :: d :: rest)) = none := by
  obtain ⟨_, hread⟩ := codeUnit_eq hunit rest
  simp [unicodeEscape, hread, bind, Except.bind, hlower]

section

variable (hunit : codeUnit? a b c d = some unit) (hlower : isLowerSurrogate unit = false)
  (hupper : isUpperSurrogate unit = true)

include hunit hlower hupper

/-- An upper surrogate must be followed by a backslash. -/
theorem outcome_unicodeEscape_upper_cons {x : Char} (hx : x ≠ '\\') (rest : List Char) :
    outcome (unicodeEscape (a :: b :: c :: d :: x :: rest)) = none := by
  obtain ⟨_, hread⟩ := codeUnit_eq hunit (x :: rest)
  simp [unicodeEscape, hread, bind, Except.bind, hlower, hupper, pairMark, hx]

/-- An upper surrogate makes a character with a lower one, and with nothing else. -/
theorem outcome_unicodeEscape_upper {p : Piece} (hp : p.IsValid) (rest : List Char) :
    outcome (unicodeEscape (a :: b :: c :: d :: (p.text ++ rest))) =
      p.codeUnit?.bind fun lower =>
        if isLowerSurrogate lower then some (pairChar unit lower, rest) else none := by
  cases p with
  | plain x => exact outcome_unicodeEscape_upper_cons hunit hlower hupper hp.2.1 rest
  | short x =>
    have hx : x ≠ 'u' := by
      rintro rfl
      simp [Piece.IsValid, shortEscape?] at hp
    obtain ⟨_, hread⟩ := codeUnit_eq hunit ('\\' :: x :: rest)
    simp only [Piece.text, List.cons_append, List.nil_append]
    simp [unicodeEscape, hread, bind, Except.bind, hlower, hupper, pairMark, hx, Piece.codeUnit?]
  | unit e f g i =>
    obtain ⟨lower, hsecond⟩ := Option.isSome_iff_exists.1 hp
    obtain ⟨_, hread⟩ := codeUnit_eq hunit ('\\' :: 'u' :: e :: f :: g :: i :: rest)
    obtain ⟨_, hnext⟩ := codeUnit_eq hsecond rest
    simp only [Piece.text, List.cons_append, List.nil_append]
    cases hpair : isLowerSurrogate lower <;>
      simp [unicodeEscape, hread, bind, Except.bind, hlower, hupper, pairMark, hnext, hpair,
        Piece.codeUnit?, hsecond]

end

end

/-- How many characters a text may have does not matter to a string in it. -/
theorem outcome_stringRest_bound {b b' : Nat} (before text : List Char) (h : text.length < b)
    (h' : text.length < b') :
    outcome (stringRest before text h) = outcome (stringRest before text h') := by
  fun_induction stringRest before text h with
  | case1 | case2 | case5 =>
    rw [stringRest.eq_def]
    simp [*]
  | case3 before _ _ hread _ _ _ _ ih =>
    rw [stringRest.eq_def before]
    simp only [hread]
    simpa using ih _
  | case4 before _ _ hread _ _ =>
    rw [stringRest.eq_def before]
    simp [hread]
  | case6 before _ _ _ _ _ _ _ _ ih =>
    rw [stringRest.eq_def before]
    simpa [*] using ih _

/-- Reads the rest of a string. -/
def readString (before text : List Char) : Option (String × List Char) :=
  outcome (stringRest before text (length_lt_succ text))

section

variable {before text rest : List Char}

theorem outcome_stringRest (h : text.length < bound) :
    outcome (stringRest before text h) = readString before text :=
  outcome_stringRest_bound _ _ _ _

theorem readString_quote : readString before ('"' :: rest) =
    some (String.ofList before.reverse, rest) := by
  rw [readString, stringRest.eq_def]
  simp

/-- A character that stands for itself is added to a string. -/
theorem readString_plain {c : Char} (hc : (Piece.plain c).IsValid) :
    readString before (c :: text) = readString (c :: before) text := by
  rw [readString, stringRest.eq_def]
  simp [hc.1, hc.2.1, hc.2.2, outcome_stringRest]

/-- An escape adds the character that it stands for. -/
theorem readString_escape : readString before ('\\' :: text) =
    (outcome (escaped id unicodeEscape text)).bind fun p => readString (p.1 :: before) p.2 := by
  rw [readString, stringRest.eq_def]
  cases hread : escaped id unicodeEscape text <;> simp [hread, outcome_stringRest]

@[simp] theorem outcome_escaped_unicode :
    outcome (escaped id unicodeEscape ('u' :: text)) = outcome (unicodeEscape text) := by
  simp [escaped, shortEscape?]

end

/-- A string is read as what it means, and refused when it means nothing. -/
theorem readString_pieces : (ps : List Piece) → (∀ p ∈ ps, p.IsValid) →
    ∀ before rest : List Char, readString before (ps.flatMap Piece.text ++ '"' :: rest) =
      (unescape? ps).map fun cs => (String.ofList (before.reverse ++ cs), rest)
  | [], _, before, rest => by simp [unescape?, readString_quote]
  | .plain c :: ps, hps, before, rest => by
    obtain ⟨hc, hps⟩ := List.forall_mem_cons.1 hps
    simp [Piece.text, readString_plain hc, readString_pieces ps hps, unescape?, Function.comp_def]
  | .short c :: ps, hps, before, rest => by
    obtain ⟨hc, hps⟩ := List.forall_mem_cons.1 hps
    obtain ⟨x, hx⟩ := Option.isSome_iff_exists.1 hc
    simp [Piece.text, readString_escape, escaped, hx, readString_pieces ps hps, unescape?,
      Function.comp_def]
  | .unit a b c d :: ps, hps, before, rest => by
    obtain ⟨hunit, hps⟩ := List.forall_mem_cons.1 hps
    obtain ⟨unit, hunit⟩ := Option.isSome_iff_exists.1 hunit
    simp only [List.flatMap_cons, Piece.text, List.cons_append, List.nil_append, readString_escape,
      outcome_escaped_unicode]
    cases hlower : isLowerSurrogate unit with
    | true => simp [outcome_unicodeEscape_lower hunit hlower, unescape?, hunit, hlower]
    | false =>
      cases hupper : isUpperSurrogate unit with
      | false =>
        simp [outcome_unicodeEscape_single hunit hlower hupper, readString_pieces ps hps,
          unescape?, hunit, hlower, hupper, Function.comp_def]
      | true =>
        cases ps with
        | nil =>
          rw [List.flatMap_nil, List.nil_append,
            outcome_unicodeEscape_upper_cons hunit hlower hupper (by decide)]
          simp [unescape?, hunit, hlower, hupper]
        | cons p ps =>
          obtain ⟨hp, hps⟩ := List.forall_mem_cons.1 hps
          rw [List.flatMap_cons, List.append_assoc,
            outcome_unicodeEscape_upper hunit hlower hupper hp]
          cases hsecond : p.codeUnit? with
          | none => simp [unescape?, hunit, hlower, hupper, hsecond]
          | some lower =>
            cases hpair : isLowerSurrogate lower <;>
              simp [unescape?, hunit, hlower, hupper, hsecond, hpair, readString_pieces ps hps,
                Function.comp_def]

/-- A string that nobody asks for is skimmed, whether it means something or not. -/
theorem skimString_pieces {rest : List Char} : (ps : List Piece) → (∀ p ∈ ps, p.IsValid) →
    ∀ {text : List Char}, text = ps.flatMap Piece.text ++ '"' :: rest →
      ∀ h : text.length < bound, outcome (skimString text h) = some ((), rest)
  | [], _, text, htext, h => by
    have htext : text = '"' :: rest := htext
    subst htext
    rw [skimString.eq_def]
    simp
  | .plain c :: ps, hps, text, htext, h => by
    obtain ⟨hc, hps⟩ := List.forall_mem_cons.1 hps
    have htext : text = c :: (ps.flatMap Piece.text ++ '"' :: rest) := htext
    subst htext
    rw [skimString.eq_def]
    simpa [hc.1, hc.2.1, hc.2.2] using skimString_pieces ps hps rfl _
  | .short c :: ps, hps, text, htext, h => by
    obtain ⟨hc, hps⟩ := List.forall_mem_cons.1 hps
    obtain ⟨x, hx⟩ := Option.isSome_iff_exists.1 hc
    have htext : text = '\\' :: c :: (ps.flatMap Piece.text ++ '"' :: rest) := htext
    subst htext
    rw [skimString.eq_def]
    simpa [escaped, hx] using skimString_pieces ps hps rfl _
  | .unit a b c d :: ps, hps, text, htext, h => by
    obtain ⟨hunit, hps⟩ := List.forall_mem_cons.1 hps
    obtain ⟨unit, hunit⟩ := Option.isSome_iff_exists.1 hunit
    have htext : text = '\\' :: 'u' :: a :: b :: c :: d :: (ps.flatMap Piece.text ++ '"' :: rest) :=
      htext
    subst htext
    obtain ⟨_, hread⟩ := codeUnit_eq hunit (ps.flatMap Piece.text ++ '"' :: rest)
    rw [skimString.eq_def]
    simpa [escaped, shortEscape?, Reader.map, hread, Except.map, Read.map, Read.within]
      using skimString_pieces ps hps rfl _

/-! ## Numbers -/

/-- Whether a number ends in front of the text. -/
def StopsNumber : List Char → Prop
  | [] => True
  | c :: _ => digit? c = none ∧ c ≠ '.' ∧ c ≠ 'e' ∧ c ≠ 'E'

/-- Whether digits end in front of the text. -/
def StopsDigits : List Char → Prop
  | [] => True
  | c :: _ => digit? c = none

theorem StopsNumber.stopsDigits {rest : List Char} (h : StopsNumber rest) : StopsDigits rest := by
  cases rest with
  | nil => trivial
  | cons c rest => exact h.1

theorem digit?_digitChar : ∀ d < 10, digit? d.digitChar = some d := by decide

section

variable {rest : List Char} (early : Cause)

theorem digits_digitText {ds : List Nat} (hds : ∀ d ∈ ds, d < 10) (hrest : StopsDigits rest) :
    ∀ h : (digitText ds ++ rest).length < bound,
      ∃ hr, digits (digitText ds ++ rest) h = ⟨ds, rest, hr⟩ := by
  induction ds with
  | nil =>
    intro h
    refine ⟨h, ?_⟩
    cases rest with
    | nil => rfl
    | cons c rest =>
      have hc : digit? c = none := hrest
      simp [digitText, digits, hc]
  | cons d ds ih =>
    intro h
    obtain ⟨hd, hds⟩ := List.forall_mem_cons.1 hds
    obtain ⟨hr, hread⟩ := ih hds (length_lt_of_cons h)
    refine ⟨hr, ?_⟩
    simp only [digitText, List.map_cons, List.cons_append] at hread ⊢
    simp [digits, digit?_digitChar d hd, hread, Read.map]

theorem outcome_someDigits {ds : List Nat} (hds : IsDigits ds) (hrest : StopsDigits rest)
    (h : (digitText ds ++ rest).length < bound) :
    outcome (someDigits early (digitText ds ++ rest) h) = some (ds, rest) := by
  cases ds with
  | nil => exact absurd rfl hds.1
  | cons d ds =>
    obtain ⟨hd, hds⟩ := List.forall_mem_cons.1 hds.2
    obtain ⟨hr, hread⟩ := digits_digitText hds hrest (length_lt_of_cons h)
    simp only [digitText, List.map_cons, List.cons_append] at hread ⊢
    simp [someDigits, digit?_digitChar d hd, hread, Read.map]

theorem outcome_wholeDigits {d : Nat} {ds : List Nat} (hwhole : IsWhole (d :: ds))
    (hrest : StopsDigits rest) (h : (digitText ds ++ rest).length < bound) :
    outcome (wholeDigits d.digitChar (digitText ds ++ rest) h) = some (d :: ds, rest) := by
  obtain ⟨hd, hds⟩ := List.forall_mem_cons.1 hwhole.1.2
  obtain ⟨hr, hread⟩ := digits_digitText hds hrest h
  cases d with
  | zero =>
    obtain rfl : ds = [] := by simpa using hwhole.2
    cases rest with
    | nil => rfl
    | cons c rest =>
      have hc : digit? c = none := hrest
      change outcome (wholeDigits (Nat.digitChar 0) (c :: rest) h) = _
      simp [wholeDigits, digit?_digitChar 0 hd, hc]
  | succ d => simp [wholeDigits, digit?_digitChar _ hd, hread, Read.map]

theorem outcome_fractionDigits {fraction : Option (List Nat)} {text : List Char}
    (hfraction : IsFractionText fraction text) (hrest : StopsDigits rest)
    (hpoint : fraction = none → rest.head? ≠ some '.') (h : (text ++ rest).length < bound) :
    outcome (fractionDigits early (text ++ rest) h) = some (fraction, rest) := by
  cases fraction with
  | none =>
    obtain rfl : text = [] := hfraction
    cases rest with
    | nil => rfl
    | cons c rest =>
      have hc : c ≠ '.' := by simpa using hpoint rfl
      simp [fractionDigits, hc]
  | some ds =>
    obtain ⟨hds, rfl⟩ := hfraction
    simp only [List.cons_append, fractionDigits, outcome_map]
    rw [outcome_someDigits early hds hrest]
    rfl

theorem exponentDigits_unsigned {d : Nat} (hd : d < 10) (text : List Char)
    (h : (d.digitChar :: text).length < bound) :
    exponentDigits early (d.digitChar :: text) h =
      (someDigits early (d.digitChar :: text) h).map (Read.map (⟨false, ·⟩)) := by
  have hplus : d.digitChar ≠ '+' := fun heq => by simpa [heq, digit?] using digit?_digitChar d hd
  have hminus : d.digitChar ≠ '-' := fun heq => by simpa [heq, digit?] using digit?_digitChar d hd
  simp [exponentDigits, hplus, hminus]

theorem outcome_exponentDigits {e : Exponent} {sign : List Char} (hds : IsDigits e.digits)
    (hsign : if e.negative then sign = ['-'] else sign = [] ∨ sign = ['+'])
    (hrest : StopsDigits rest) (h : (sign ++ (digitText e.digits ++ rest)).length < bound) :
    outcome (exponentDigits early (sign ++ (digitText e.digits ++ rest)) h) = some (e, rest) := by
  obtain ⟨negative, ds⟩ := e
  cases negative with
  | true =>
    obtain rfl : sign = ['-'] := by simpa using hsign
    simp only [List.cons_append, List.nil_append, exponentDigits, outcome_map]
    rw [outcome_someDigits early hds hrest]
    rfl
  | false =>
    obtain rfl | rfl : sign = [] ∨ sign = ['+'] := by simpa using hsign
    · cases ds with
      | nil => exact absurd rfl hds.1
      | cons d ds =>
        have hread := outcome_someDigits early hds hrest h
        simp only [digitText, List.nil_append, List.map_cons, List.cons_append] at hread ⊢
        rw [exponentDigits_unsigned early (hds.2 d List.mem_cons_self), outcome_map, hread]
        rfl
    · simp only [List.cons_append, List.nil_append, exponentDigits, outcome_map]
      rw [outcome_someDigits early hds hrest]
      rfl

theorem outcome_exponentPart {exponent : Option Exponent} {text : List Char}
    (hexponent : IsExponentText exponent text) (hrest : StopsNumber rest)
    (h : (text ++ rest).length < bound) :
    outcome (exponentPart early (text ++ rest) h) = some (exponent, rest) := by
  cases exponent with
  | none =>
    obtain rfl : text = [] := hexponent
    cases rest with
    | nil => rfl
    | cons c rest => simp [exponentPart, hrest.2.2.1, hrest.2.2.2]
  | some e =>
    obtain ⟨hds, mark, sign, hmark, hsign, rfl⟩ := hexponent
    obtain rfl | rfl := hmark <;>
    · simp only [List.cons_append, List.append_assoc, exponentPart, outcome_map]
      rw [outcome_exponentDigits early hds hsign hrest.stopsDigits]
      rfl

/-- Digits end where a fraction, an exponent or the text behind a number starts. -/
theorem stopsDigits_exponent {exponent : Option Exponent} {text : List Char}
    (hexponent : IsExponentText exponent text) (hrest : StopsNumber rest) :
    StopsDigits (text ++ rest) ∧ (text ++ rest).head? ≠ some '.' := by
  cases exponent with
  | none =>
    obtain rfl : text = [] := hexponent
    refine ⟨hrest.stopsDigits, ?_⟩
    cases rest with
    | nil => simp
    | cons c rest => simpa using hrest.2.1
  | some e =>
    obtain ⟨-, mark, sign, hmark, -, rfl⟩ := hexponent
    obtain rfl | rfl := hmark <;> exact ⟨rfl, by simp⟩

theorem stopsDigits_fraction {fraction : Option (List Nat)} {text : List Char}
    (hfraction : IsFractionText fraction text) (hrest : StopsDigits rest) :
    StopsDigits (text ++ rest) := by
  cases fraction with
  | none =>
    obtain rfl : text = [] := hfraction
    exact hrest
  | some ds =>
    obtain ⟨-, rfl⟩ := hfraction
    rfl

theorem outcome_unsignedNumeral (negative : Bool) {d : Nat} {ds : List Nat}
    {fraction : Option (List Nat)} {exponent : Option Exponent} {point power : List Char}
    (hwhole : IsWhole (d :: ds)) (hfraction : IsFractionText fraction point)
    (hexponent : IsExponentText exponent power) (hrest : StopsNumber rest)
    {text : List Char} (htext : text = digitText ds ++ (point ++ (power ++ rest)))
    (h : text.length < bound) :
    outcome (unsignedNumeral early negative d.digitChar text h) =
      some (⟨negative, d :: ds, fraction, exponent⟩, rest) := by
  subst htext
  obtain ⟨hstop, hpoint⟩ := stopsDigits_exponent hexponent hrest
  obtain ⟨hr, hread⟩ := outcome_eq_some.1
    (outcome_wholeDigits hwhole (stopsDigits_fraction hfraction hstop) h)
  obtain ⟨hr', hread'⟩ := outcome_eq_some.1
    (outcome_fractionDigits early hfraction hstop (fun _ => hpoint) hr)
  obtain ⟨hr'', hread''⟩ := outcome_eq_some.1 (outcome_exponentPart early hexponent hrest hr')
  simp [unsignedNumeral, bind, Except.bind, hread, hread', hread'']

/-- A number is read digit by digit. -/
theorem outcome_numeral {n : Numeral} {text : List Char} (hn : IsNumberText n text)
    (hrest : StopsNumber rest) : ∃ c more, text = c :: more ∧ opensNumeral c = true ∧
      ∀ {bound : Nat} (h : (more ++ rest).length < bound),
        outcome (numeral early c (more ++ rest) h) = some (n, rest) := by
  obtain ⟨negative, whole, fraction, exponent⟩ := n
  obtain ⟨hwhole, point, power, hfraction, hexponent, rfl⟩ := hn
  cases whole with
  | nil => exact absurd rfl hwhole.1.1
  | cons d ds =>
    have hd := digit?_digitChar d (hwhole.1.2 d List.mem_cons_self)
    cases negative with
    | true =>
      refine ⟨'-', d.digitChar :: (digitText ds ++ (point ++ power)), rfl, rfl, fun {_} h => ?_⟩
      simp only [List.cons_append, numeral, if_true]
      exact outcome_unsignedNumeral early true hwhole hfraction hexponent hrest (by simp) _
    | false =>
      refine ⟨d.digitChar, digitText ds ++ (point ++ power), rfl, by simp [opensNumeral, hd],
        fun {_} h => ?_⟩
      have hminus : d.digitChar ≠ '-' := fun heq => by simp [heq, digit?] at hd
      simp only [numeral, if_neg hminus]
      exact outcome_unsignedNumeral early false hwhole hfraction hexponent hrest (by simp) _

end

/-! ## Integers -/

theorem le_appendValue (ds : List Nat) (value : Nat) : value ≤ appendValue value ds := by
  induction ds generalizing value with
  | nil => exact Nat.le_refl _
  | cons d ds ih => exact Nat.le_trans (by omega) (ih (value * 10 + d))

/-- Digits that mean less than `2 ^ 64` are all kept, and only such digits are. -/
theorem appendDigits_eq_nil_iff (ds : List Nat) {value : Nat} (hvalue : value < UInt64.size) :
    (appendDigits value ds).2 = [] ↔ appendValue value ds < UInt64.size := by
  induction ds generalizing value with
  | nil => simpa [appendDigits, appendValue] using hvalue
  | cons d ds ih =>
    by_cases hd : value * 10 + d < UInt64.size
    · simpa [appendDigits, appendValue, hd] using ih hd
    · have := le_appendValue ds (value * 10 + d)
      simp only [appendDigits, appendValue, if_neg hd, List.cons_ne_nil, false_iff]
      omega

theorem appendDigits_fst {ds : List Nat} {value : Nat} (h : (appendDigits value ds).2 = []) :
    (appendDigits value ds).1 = appendValue value ds := by
  induction ds generalizing value with
  | nil => rfl
  | cons d ds ih =>
    unfold appendDigits at h ⊢
    split at h
    · rename_i hd
      simpa [hd, appendValue] using ih h
    · simp at h

theorem inRange_float_ne_integer {negative : Bool} (d : Option Double) (i : Int) :
    inRange (.float negative) d ≠ .ok (.integer i) := by
  cases d <;> simp [inRange]

theorem Numeral.double?_ne_integer (n : Numeral) (i : Int) : n.double? ≠ .ok (.integer i) := by
  unfold Numeral.double?
  split
  · exact inRange_float_ne_integer _ i
  · split
    · exact inRange_float_ne_integer _ i
    · dsimp only
      split <;> simp

theorem inRange_id_eq_ok_iff {number : Option Number} {m : Number} :
    inRange id number = .ok m ↔ number = some m := by
  cases number <;> simp [inRange]

theorem integerNumber?_eq_integer_iff {negative : Bool} {magnitude : Nat} {i : Int} :
    integerNumber? negative magnitude = some (.integer i) ↔
      if negative then (1 ≤ magnitude ∧ magnitude ≤ 0x8000000000000000) ∧ i = -magnitude
      else i = magnitude := by
  cases negative with
  | false => simp [integerNumber?, eq_comm]
  | true =>
    by_cases hmagnitude : 1 ≤ magnitude ∧ magnitude ≤ 0x8000000000000000
    · simp [integerNumber?, hmagnitude, eq_comm]
    · simp [integerNumber?, hmagnitude]

/-- A number with a fraction, an exponent or too many digits is no integer. -/
theorem Numeral.number?_ne_integer {n : Numeral} (hn : n.isInteger = false) (i : Int) :
    n.number? ≠ .ok (.integer i) := by
  rw [Numeral.number?, hn, if_neg Bool.false_ne_true]
  exact n.double?_ne_integer i

theorem Numeral.significand_whole {negative : Bool} {whole : List Nat}
    (hfits : (appendDigits 0 whole).2 = []) :
    (Numeral.significand ⟨negative, whole, none, none⟩).1 = digitsValue whole :=
  appendDigits_fst hfits

/-- What a number is where an integer is wanted: it must be spelled as one, and fit. -/
theorem Numeral.number?_eq_integer_iff {n : Numeral} {i : Int} :
    n.number? = .ok (.integer i) ↔ n.integer? = some i := by
  obtain ⟨negative, whole, fraction, exponent⟩ := n
  rcases fraction with _ | fraction
  · rcases exponent with _ | exponent
    · have hvalue : (appendDigits 0 whole).2 = [] ↔ digitsValue whole < UInt64.size :=
        appendDigits_eq_nil_iff whole (by decide)
      by_cases hfits : (appendDigits 0 whole).2 = []
      · have hlt := hvalue.1 hfits
        have hinteger : Numeral.isInteger ⟨negative, whole, none, none⟩ = true := by
          simp [Numeral.isInteger, hfits]
        rw [Numeral.number?, hinteger, if_pos rfl, inRange_id_eq_ok_iff,
          integerNumber?_eq_integer_iff, Numeral.significand_whole hfits]
        cases negative <;> simp [Numeral.integer?, hlt, eq_comm]
      · have hle : ¬ digitsValue whole < UInt64.size := fun hlt => hfits (hvalue.2 hlt)
        refine iff_of_false (Numeral.number?_ne_integer (by simp [Numeral.isInteger, hfits]) i) ?_
        cases negative with
        | false => simp [Numeral.integer?, hle]
        | true =>
          have hsize : UInt64.size = 18446744073709551616 := rfl
          have hlarge : ¬ digitsValue whole ≤ 0x8000000000000000 := by omega
          simp [Numeral.integer?, hlarge]
    · exact iff_of_false (Numeral.number?_ne_integer (by simp [Numeral.isInteger]) i)
        (by simp [Numeral.integer?])
  · exact iff_of_false (Numeral.number?_ne_integer (by simp [Numeral.isInteger]) i)
      (by simp [Numeral.integer?])

end ManifestAtlas.Json
