import Mathlib
import ManifestAtlas.Proofs.LabelEscapes

/-!
# Laws of escaping

Labels and outlines are escaped in the same way, but for brackets: both walk
over the text once, from left to right, and put something in place of each
character (`passOver`).  They differ in the table of what stands for a
character, `escapeChar` and `outlineChar`.

There are three groups, each about the pass with any table.

* What the result holds.  A character that the table never writes is not in the
  result (`notMem_passOver`), and backslashes come in pairs if the table writes
  them so (`slashesPaired_passOver`).
* Texts in a row.  Two texts are escaped one after the other unless a carriage
  return and its line feed are split between them (`passOver_append_iff`).
* Texts that stay as they are (`passOver_eq_self`).

Main statement: `escapes_are_one_pass`.
-/

namespace ManifestAtlas

/-! ## The pass -/

/-- A text from left to right: a carriage return with a line feed behind it becomes a break token,
and any other character what `stand` has for it. -/
def passOver (stand : Char → List Char) : List Char → List Char
  | [] => []
  | [c] => stand c
  | c :: next :: rest =>
    if c = '\r' ∧ next = '\n' then lineBreak ++ passOver stand rest
    else stand c ++ passOver stand (next :: rest)

/-- What stands for a character in an outline. -/
def outlineChar : Char → List Char
  | '\\' => ['\\', '\\']
  | '"' => ['\'']
  | '\n' => lineBreak
  | '(' => ['（']
  | ')' => ['）']
  | '[' => ['［']
  | ']' => ['］']
  | c => [c]

section

variable {stand : Char → List Char}

theorem passOver_cons {c : Char} {rest : List Char} (h : ¬(c = '\r' ∧ rest.head? = some '\n')) :
    passOver stand (c :: rest) = stand c ++ passOver stand rest := by
  cases rest with
  | nil => exact (List.append_nil _).symm
  | cons next rest => rw [passOver, if_neg (by simpa using h)]

theorem passOver_pair (rest : List Char) :
    passOver stand ('\r' :: '\n' :: rest) = lineBreak ++ passOver stand rest := by
  rw [passOver, if_pos ⟨rfl, rfl⟩]

theorem escapePass_eq_passOver (text : List Char) : escapePass text = passOver escapeChar text := by
  fun_induction escapePass text with
  | case1 => rfl
  | case2 => rfl
  | case3 c next rest h ih => rw [h.1, h.2, passOver_pair, ih]
  | case4 c next rest h ih => rw [passOver_cons (by simpa using h), ih]

theorem map_widenBracket_escapeChar (c : Char) :
    (escapeChar c).map widenBracket = outlineChar c := by
  unfold escapeChar
  split
  · rfl
  · rfl
  · decide
  · rename_i hslash hquote hfeed
    unfold outlineChar widenBracket
    split <;> simp_all

/-- Widening brackets behind the pass is as good as widening them on the way. -/
theorem map_widenBracket_passOver (text : List Char) :
    (passOver escapeChar text).map widenBracket = passOver outlineChar text := by
  have hbreak : lineBreak.map widenBracket = lineBreak := by decide
  fun_induction passOver outlineChar text with
  | case1 => rfl
  | case2 c => exact map_widenBracket_escapeChar c
  | case3 c next rest h ih => rw [h.1, h.2, passOver_pair, List.map_append, hbreak, ih]
  | case4 c next rest h ih =>
    rw [passOver_cons (by simpa using h), List.map_append, map_widenBracket_escapeChar, ih]

theorem toList_escapeLabel (text : String) :
    (escapeLabel text).toList = passOver escapeChar text.toList := by
  rw [escapeLabel, String.toList_ofList, escapeLabelChars_eq_pass, escapePass_eq_passOver]

theorem toList_escapeOutline (text : String) :
    (escapeOutline text).toList = passOver outlineChar text.toList := by
  rw [escapeOutline, String.toList_ofList, escapeLabelChars_eq_pass, escapePass_eq_passOver,
    map_widenBracket_passOver]

/-! ## What the result holds -/

theorem mem_passOver {c : Char} {text : List Char} (h : c ∈ passOver stand text) :
    c ∈ lineBreak ∨ ∃ x ∈ text, c ∈ stand x := by
  fun_induction passOver stand text with
  | case1 => cases h
  | case2 x => exact .inr ⟨x, by simp, h⟩
  | case3 x next rest _ ih =>
    rcases List.mem_append.1 h with h | h
    · exact .inl h
    · refine (ih h).imp id ?_
      rintro ⟨y, hy, hc⟩
      exact ⟨y, by simp [hy], hc⟩
  | case4 x next rest _ ih =>
    rcases List.mem_append.1 h with h | h
    · exact .inr ⟨x, by simp, h⟩
    · refine (ih h).imp id ?_
      rintro ⟨y, hy, hc⟩
      exact ⟨y, List.mem_cons_of_mem _ hy, hc⟩

theorem notMem_passOver {c : Char} (hbreak : c ∉ lineBreak) (hstand : ∀ x, c ∉ stand x)
    (text : List Char) : c ∉ passOver stand text := by
  intro h
  rcases mem_passOver h with h | ⟨x, _, h⟩
  · exact hbreak h
  · exact hstand x h

/-- Backslashes come two by two. -/
inductive SlashesPaired : List Char → Prop where
  | nil : SlashesPaired []
  | pair {rest} (h : SlashesPaired rest) : SlashesPaired ('\\' :: '\\' :: rest)
  | other {c rest} (hc : c ≠ '\\') (h : SlashesPaired rest) : SlashesPaired (c :: rest)

theorem SlashesPaired.append {a b : List Char} (ha : SlashesPaired a) (hb : SlashesPaired b) :
    SlashesPaired (a ++ b) := by
  induction ha with
  | nil => exact hb
  | pair _ ih => exact .pair ih
  | other hc _ ih => exact .other hc ih

theorem slashesPaired_of_notMem {text : List Char} (h : '\\' ∉ text) : SlashesPaired text := by
  induction text with
  | nil => exact .nil
  | cons c rest ih =>
    rw [List.mem_cons, not_or] at h
    exact .other (Ne.symm h.1) (ih h.2)

theorem slashesPaired_passOver (hstand : ∀ c, SlashesPaired (stand c)) (text : List Char) :
    SlashesPaired (passOver stand text) := by
  have hbreak : SlashesPaired lineBreak := slashesPaired_of_notMem (by decide)
  fun_induction passOver stand text with
  | case1 => exact .nil
  | case2 c => exact hstand c
  | case3 c next rest _ ih => exact hbreak.append ih
  | case4 c next rest _ ih => exact (hstand c).append ih

/-- A text has `n` backslashes in a row somewhere, and none right in front of them or right behind
them. -/
def HasSlashRun (text : List Char) (n : Nat) : Prop :=
  ∃ before after, text = before ++ (List.replicate n '\\' ++ after) ∧
    before.getLast? ≠ some '\\' ∧ after.head? ≠ some '\\'

theorem SlashesPaired.even_of_hasSlashRun {text : List Char} (h : SlashesPaired text) {n : Nat}
    (hrun : HasSlashRun text n) : Even n := by
  obtain ⟨before, after, htext, hbefore, hafter⟩ := hrun
  -- A run begins in front of a pair or behind it, but not between its two slashes.
  induction h generalizing before n with
  | nil =>
    obtain ⟨-, hrest⟩ := List.append_eq_nil_iff.1 htext.symm
    obtain ⟨hnone, -⟩ := List.append_eq_nil_iff.1 hrest
    obtain rfl : n = 0 := by simpa using hnone
    exact Even.zero
  | @pair rest h ih =>
    match before, n with
    | [], 0 => exact Even.zero
    | [], 1 =>
      rw [List.nil_append] at htext
      obtain rfl := (List.cons.inj htext).2
      exact absurd rfl hafter
    | [], n + 2 =>
      rw [List.nil_append] at htext
      have hrest := (List.cons.inj (List.cons.inj htext).2).2
      obtain ⟨k, rfl⟩ := ih [] hrest (by simp)
      exact ⟨k + 1, by omega⟩
    | [b], n =>
      obtain ⟨rfl, -⟩ := List.cons.inj htext
      exact absurd rfl hbefore
    | b :: b' :: before, n =>
      obtain ⟨hb, hrest⟩ := List.cons.inj htext
      obtain ⟨hb', hrest⟩ := List.cons.inj hrest
      refine ih before hrest fun hlast => hbefore ?_
      rw [List.getLast?_cons, List.getLast?_cons, hlast]
      rfl
  | @other c rest hc h ih =>
    match before, n with
    | [], 0 => exact Even.zero
    | [], n + 1 =>
      rw [List.nil_append] at htext
      exact absurd (List.cons.inj htext).1 hc
    | b :: before, n =>
      obtain ⟨-, hrest⟩ := List.cons.inj htext
      refine ih before hrest fun hlast => hbefore ?_
      rw [List.getLast?_cons, hlast]
      rfl

/-! ## Texts in a row -/

/-- A carriage return and the line feed behind it are split between two texts. -/
def SplitsBreak (a b : List Char) : Prop :=
  a.getLast? = some '\r' ∧ b.head? = some '\n'

theorem SplitsBreak.cons {a b : List Char} (h : SplitsBreak a b) (c : Char) :
    SplitsBreak (c :: a) b := by
  refine ⟨?_, h.2⟩
  rw [List.getLast?_cons, h.1]
  rfl

theorem passOver_append {a b : List Char} (h : ¬SplitsBreak a b) :
    passOver stand (a ++ b) = passOver stand a ++ passOver stand b := by
  fun_induction passOver stand a with
  | case1 => rfl
  | case2 c => exact passOver_cons fun hpair => h ⟨by rw [hpair.1]; rfl, hpair.2⟩
  | case3 c next rest hpair ih =>
    rw [hpair.1, hpair.2, List.cons_append, List.cons_append, passOver_pair,
      ih fun hrest => h ((hrest.cons next).cons c), List.append_assoc]
  | case4 c next rest hpair ih =>
    have hcons : passOver stand (c :: (next :: rest ++ b)) =
        stand c ++ passOver stand (next :: rest ++ b) :=
      passOver_cons (by simpa using hpair)
    rw [List.cons_append, hcons, ih fun hrest => h (hrest.cons c), List.append_assoc]

/-- The pass takes two texts in a row one after the other just if no line break is split between
them: a split one comes out with its carriage return. -/
theorem passOver_append_iff (hreturn : stand '\r' = ['\r']) (hfeed : stand '\n' = lineBreak)
    {a b : List Char} :
    passOver stand (a ++ b) = passOver stand a ++ passOver stand b ↔ ¬SplitsBreak a b := by
  refine ⟨?_, passOver_append⟩
  rintro happend ⟨hlast, hhead⟩
  obtain ⟨a, rfl⟩ := List.getLast?_eq_some_iff.1 hlast
  obtain ⟨b, rfl⟩ := List.head?_eq_some_iff.1 hhead
  have hwhole : passOver stand (a ++ '\r' :: '\n' :: b) =
      passOver stand a ++ (lineBreak ++ passOver stand b) := by
    rw [passOver_append fun hsplit => absurd hsplit.2 (by simp), passOver_pair]
  have hfirst : passOver stand (a ++ ['\r']) = passOver stand a ++ ['\r'] := by
    rw [passOver_append fun hsplit => absurd hsplit.2 (by simp), passOver, hreturn]
  have hsecond : passOver stand ('\n' :: b) = lineBreak ++ passOver stand b := by
    rw [passOver_cons (by simp), hfeed]
  rw [List.append_assoc, List.singleton_append, hwhole, hfirst, hsecond] at happend
  have hlength := congrArg List.length happend
  simp only [List.length_append, List.length_singleton] at hlength
  omega

/-! ## Texts that stay as they are -/

theorem passOver_eq_self {text : List Char} (h : ∀ c ∈ text, stand c = [c] ∧ c ≠ '\n') :
    passOver stand text = text := by
  induction text with
  | nil => rfl
  | cons c rest ih =>
    obtain ⟨hc, hrest⟩ := List.forall_mem_cons.1 h
    have hpair : ¬(c = '\r' ∧ rest.head? = some '\n') := fun hpair =>
      (hrest _ (List.mem_of_head? hpair.2)).2 rfl
    rw [passOver_cons hpair, hc.1, ih hrest, List.singleton_append]

/-- A second pass changes nothing if the table keeps what it wrote for the characters of the
text. -/
theorem passOver_passOver {text : List Char} (hbreak : ∀ c ∈ lineBreak, stand c = [c] ∧ c ≠ '\n')
    (hstand : ∀ x ∈ text, ∀ c ∈ stand x, stand c = [c] ∧ c ≠ '\n') :
    passOver stand (passOver stand text) = passOver stand text := by
  refine passOver_eq_self fun c hc => ?_
  rcases mem_passOver hc with hc | ⟨x, hx, hc⟩
  · exact hbreak c hc
  · exact hstand x hx c hc

end

/-! ## The two escapes -/

/-- A way of escaping is one pass over the text with the table `stand`, and never writes certain
characters.  Backslashes come out in runs of even length, texts in a row are escaped one after the
other unless a line break is split between them, and nothing is escaped twice in a text without
backslashes. -/
structure EscapesInOnePass (escape : String → String) (stand : Char → List Char)
    (never : List Char) : Prop where
  pass : ∀ text, (escape text).toList = passOver stand text.toList
  never : ∀ text, ∀ c ∈ never, c ∉ (escape text).toList
  even : ∀ text n, HasSlashRun (escape text).toList n → Even n
  append : ∀ a b, escape (a ++ b) = escape a ++ escape b ↔ ¬SplitsBreak a.toList b.toList
  again : ∀ text, '\\' ∉ text.toList → escape (escape text) = escape text

/-- A table that keeps carriage returns, breaks lines, pairs backslashes and keeps what it writes
for any character but the backslash. -/
structure IsEscapeTable (stand : Char → List Char) : Prop where
  carriageReturn : stand '\r' = ['\r']
  lineFeed : stand '\n' = lineBreak
  slash : stand '\\' = ['\\', '\\']
  kept : ∀ x, x ≠ '\\' → ∀ c ∈ stand x, stand c = [c] ∧ c ≠ '\n' ∧ c ≠ '\\'

/-- What the table replaces does not come out, but for backslashes. -/
theorem IsEscapeTable.notMem {stand : Char → List Char} (h : IsEscapeTable stand) {c : Char}
    (hslash : c ≠ '\\') (hc : stand c ≠ [c]) (x : Char) : c ∉ stand x := by
  intro hmem
  by_cases hx : x = '\\'
  · rw [hx, h.slash] at hmem
    simp [hslash] at hmem
  · exact hc (h.kept x hx c hmem).1

theorem IsEscapeTable.slashesPaired {stand : Char → List Char} (h : IsEscapeTable stand)
    (c : Char) : SlashesPaired (stand c) := by
  by_cases hc : c = '\\'
  · rw [hc, h.slash]
    exact .pair .nil
  · exact slashesPaired_of_notMem fun hmem => (h.kept c hc _ hmem).2.2 rfl

theorem IsEscapeTable.escapesInOnePass {escape : String → String} {stand : Char → List Char}
    {never : List Char} (h : IsEscapeTable stand)
    (hpass : ∀ text, (escape text).toList = passOver stand text.toList)
    (hnever : ∀ c ∈ never, c ≠ '\\' ∧ stand c ≠ [c]) :
    EscapesInOnePass escape stand never where
  pass := hpass
  never text c hc := by
    have hstand : ∀ x, c ∉ stand x := h.notMem (hnever c hc).1 (hnever c hc).2
    rw [hpass]
    exact notMem_passOver (h.lineFeed ▸ hstand '\n') hstand _
  even text n hrun := by
    rw [hpass] at hrun
    exact (slashesPaired_passOver h.slashesPaired _).even_of_hasSlashRun hrun
  append a b := by
    rw [← passOver_append_iff h.carriageReturn h.lineFeed, ← String.toList_inj, hpass,
      String.toList_append, String.toList_append, hpass, hpass]
  again text hslash := by
    rw [← String.toList_inj, hpass, hpass]
    have hkept : ∀ x, x ≠ '\\' → ∀ c ∈ stand x, stand c = [c] ∧ c ≠ '\n' := fun x hx c hc =>
      ⟨(h.kept x hx c hc).1, (h.kept x hx c hc).2.1⟩
    refine passOver_passOver ?_ fun x hx => hkept x fun heq => hslash (heq ▸ hx)
    exact h.lineFeed ▸ hkept '\n' (by decide)

theorem isEscapeTable_escapeChar : IsEscapeTable escapeChar where
  carriageReturn := rfl
  lineFeed := rfl
  slash := rfl
  kept x hx c hc := by
    unfold escapeChar at hc
    split at hc
    case h_1 => exact absurd rfl hx
    case h_3 => fin_cases hc <;> decide
    all_goals simp_all [escapeChar]

theorem isEscapeTable_outlineChar : IsEscapeTable outlineChar where
  carriageReturn := rfl
  lineFeed := rfl
  slash := rfl
  kept x hx c hc := by
    unfold outlineChar at hc
    split at hc
    case h_1 => exact absurd rfl hx
    case h_3 => fin_cases hc <;> decide
    all_goals simp_all [outlineChar]

/-- Escaping for labels and for outlines are each one pass from left to right. -/
theorem escapes_are_one_pass :
    EscapesInOnePass escapeLabel escapeChar ['"', '\n'] ∧
      EscapesInOnePass escapeOutline outlineChar ['"', '\n', '(', ')', '[', ']'] :=
  ⟨isEscapeTable_escapeChar.escapesInOnePass toList_escapeLabel
    (by simp [escapeChar, lineBreak]),
    isEscapeTable_outlineChar.escapesInOnePass toList_escapeOutline
      (by simp [outlineChar, lineBreak])⟩

end ManifestAtlas
