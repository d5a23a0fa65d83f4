import Mathlib
import ManifestAtlas.Text.Markdown

/-!
# Escaping as one pass

`escapeLabel` is written as four substitutions, one after the other.  They come
to a single pass from left to right that looks at one character at a time, or
at a carriage return with the line feed behind it (`escapeLabelChars_eq_pass`).

The pass keeps a carriage return that stands on its own.  So the escaped form
of a text holds a carriage return unless every carriage return of the text has
a line feed behind it (`return_notMem_escapeLabel`,
`return_notMem_escapeOutline`).
-/

namespace ManifestAtlas

/-! ## The pass -/

/-- What stands for a character in a label. -/
def escapeChar : Char → List Char
  | '\\' => ['\\', '\\']
  | '"' => ['\'']
  | '\n' => lineBreak
  | c => [c]

/-- The escaped form of a text, from left to right. -/
def escapePass : List Char → List Char
  | [] => []
  | [c] => escapeChar c
  | c :: next :: rest =>
    if c = '\r' ∧ next = '\n' then lineBreak ++ escapePass rest
    else escapeChar c ++ escapePass (next :: rest)

/-- The first two substitutions. -/
def escapeMarks (text : List Char) : List Char :=
  replaceChar '"' ['\''] (replaceChar '\\' ['\\', '\\'] text)

theorem replacePair_cons {a b x : Char} {r rest : List Char}
    (h : ¬(x = a ∧ rest.head? = some b)) :
    replacePair a b r (x :: rest) = x :: replacePair a b r rest := by
  cases rest with
  | nil => rfl
  | cons y rest => rw [replacePair, if_neg (by simpa using h)]

theorem escapeMarks_cons_of_ne {c : Char} {rest : List Char} (hslash : c ≠ '\\')
    (hquote : c ≠ '"') : escapeMarks (c :: rest) = c :: escapeMarks rest := by
  simp [escapeMarks, hslash, hquote]

/-- A line feed opens the text after the first two substitutions only if it did so before. -/
theorem head?_escapeMarks {c : Char} {rest : List Char} (h : c ≠ '\n') :
    (escapeMarks (c :: rest)).head? ≠ some '\n' := by
  by_cases hslash : c = '\\'
  · simp [escapeMarks, hslash]
  · by_cases hquote : c = '"'
    · simp [escapeMarks, hquote]
    · simpa [escapeMarks_cons_of_ne hslash hquote] using h

theorem escapeLabelChars_eq (text : List Char) :
    escapeLabelChars text =
      replaceChar '\n' lineBreak (replacePair '\r' '\n' lineBreak (escapeMarks text)) := rfl

/-- The escaped form of a first character that is not a carriage return with a line feed behind
it. -/
theorem escapeLabelChars_cons {c : Char} {rest : List Char}
    (h : ¬(c = '\r' ∧ rest.head? = some '\n')) :
    escapeLabelChars (c :: rest) = escapeChar c ++ escapeLabelChars rest := by
  simp only [escapeLabelChars_eq]
  by_cases hslash : c = '\\'
  · subst hslash
    have hmarks : escapeMarks ('\\' :: rest) = '\\' :: '\\' :: escapeMarks rest := by
      simp [escapeMarks]
    rw [hmarks, replacePair_cons (by simp), replacePair_cons (by simp)]
    simp [escapeChar]
  by_cases hquote : c = '"'
  · subst hquote
    have hmarks : escapeMarks ('"' :: rest) = '\'' :: escapeMarks rest := by
      simp [escapeMarks]
    rw [hmarks, replacePair_cons (by simp)]
    simp [escapeChar]
  -- The marks bring in no line feed: a pair that is there now was there before.
  have hpair : ¬(c = '\r' ∧ (escapeMarks rest).head? = some '\n') := by
    rintro ⟨hreturn, hfeed⟩
    cases rest with
    | nil => simp [escapeMarks] at hfeed
    | cons next rest => exact head?_escapeMarks (by simpa [hreturn] using h) hfeed
  rw [escapeMarks_cons_of_ne hslash hquote, replacePair_cons hpair, replaceChar_cons]
  by_cases hfeed : c = '\n'
  · simp [hfeed, escapeChar]
  · simp [hfeed, escapeChar]

theorem escapeLabelChars_pair (rest : List Char) :
    escapeLabelChars ('\r' :: '\n' :: rest) = lineBreak ++ escapeLabelChars rest := by
  have hbreak : replaceChar '\n' lineBreak lineBreak = lineBreak := by decide
  have happend : ∀ a b, replaceChar '\n' lineBreak (a ++ b) =
      replaceChar '\n' lineBreak a ++ replaceChar '\n' lineBreak b := by
    simp [replaceChar]
  have hmarks : escapeMarks ('\r' :: '\n' :: rest) = '\r' :: '\n' :: escapeMarks rest := by
    simp [escapeMarks]
  simp only [escapeLabelChars_eq]
  rw [hmarks, replacePair, if_pos ⟨rfl, rfl⟩, happend, hbreak]

/-- Escaping is one pass from left to right. -/
theorem escapeLabelChars_eq_pass (text : List Char) : escapeLabelChars text = escapePass text := by
  fun_induction escapePass text with
  | case1 => rfl
  | case2 c =>
    rw [escapeLabelChars_cons (by simp)]
    exact List.append_nil _
  | case3 c next rest h ih => rw [h.1, h.2, escapeLabelChars_pair, ih]
  | case4 c next rest h ih => rw [escapeLabelChars_cons (by simpa using h), ih]

/-! ## Carriage returns -/

/-- Every carriage return of a text has a line feed behind it. -/
def PairsReturns (text : List Char) : Prop :=
  ∀ before after, text = before ++ '\r' :: after → after.head? = some '\n'

theorem pairsReturns_of_notMem {text : List Char} (h : '\r' ∉ text) : PairsReturns text := by
  rintro before after rfl
  exact absurd (by simp) h

theorem pairsReturns_cons {c : Char} {rest : List Char} :
    PairsReturns (c :: rest) ↔ (c = '\r' → rest.head? = some '\n') ∧ PairsReturns rest := by
  constructor
  · refine fun h => ⟨fun hc => h [] rest (by rw [hc]; rfl), fun before after heq => ?_⟩
    exact h (c :: before) after (by rw [heq]; rfl)
  · rintro ⟨hfirst, hrest⟩ before after heq
    cases before with
    | nil =>
      obtain ⟨hc, rfl⟩ := List.cons.inj heq
      exact hfirst hc
    | cons b before =>
      obtain ⟨-, rfl⟩ := List.cons.inj heq
      exact hrest before after rfl

/-- A carriage return at the end of the first text has nothing behind it there. -/
theorem PairsReturns.append {a b : List Char} (ha : PairsReturns a) (hb : PairsReturns b) :
    PairsReturns (a ++ b) := by
  induction a with
  | nil => exact hb
  | cons c rest ih =>
    obtain ⟨hfirst, hrest⟩ := pairsReturns_cons.1 ha
    refine pairsReturns_cons.2 ⟨fun hc => ?_, ih hrest⟩
    show (rest ++ b).head? = some '\n'
    rw [List.head?_append, hfirst hc, Option.some_or]

theorem return_mem_escapeChar {c : Char} : '\r' ∈ escapeChar c ↔ c = '\r' := by
  unfold escapeChar
  split
  · decide
  · decide
  · decide
  · simp [eq_comm]

theorem return_notMem_escapePass {text : List Char} :
    '\r' ∉ escapePass text ↔ PairsReturns text := by
  have hbreak : '\r' ∉ lineBreak := by decide
  fun_induction escapePass text with
  | case1 => simpa using pairsReturns_of_notMem List.not_mem_nil
  | case2 c =>
    have hnil : PairsReturns [] := pairsReturns_of_notMem List.not_mem_nil
    simp [return_mem_escapeChar, pairsReturns_cons, hnil]
  | case3 c next rest h ih =>
    simp [List.mem_append, hbreak, ih, pairsReturns_cons, h]
  | case4 c next rest h ih =>
    have hfirst : c ≠ '\r' ↔ (c = '\r' → (next :: rest).head? = some '\n') :=
      ⟨fun hne hc => absurd hc hne, fun himp hc => h ⟨hc, Option.some.inj (himp hc)⟩⟩
    rw [List.mem_append, not_or, return_mem_escapeChar, pairsReturns_cons]
    exact and_congr hfirst ih

/-- The escaped form of a label holds no carriage return just if the text has no lone one. -/
theorem return_notMem_escapeLabel {text : String} :
    '\r' ∉ (escapeLabel text).toList ↔ PairsReturns text.toList := by
  rw [escapeLabel, String.toList_ofList, escapeLabelChars_eq_pass, return_notMem_escapePass]

theorem eq_of_not_staysOnLine {c : Char} (h : staysOnLine c = false) : c = '\r' ∨ c = '\n' := by
  by_cases hreturn : c = '\r'
  · exact .inl hreturn
  · exact .inr (by simpa [staysOnLine, hreturn] using h)

/-- Widening brackets keeps the characters that end a line. -/
theorem widenBracket_eq_iff {c : Char} (hc : staysOnLine c = false) (d : Char) :
    widenBracket d = c ↔ d = c := by
  unfold widenBracket
  rcases eq_of_not_staysOnLine hc with rfl | rfl <;> split <;> simp

theorem mem_escapeOutline {c : Char} (hc : staysOnLine c = false) (text : String) :
    c ∈ (escapeOutline text).toList ↔ c ∈ (escapeLabel text).toList := by
  simp [escapeOutline, escapeLabel, widenBracket_eq_iff hc]

theorem lineFeed_notMem_escapeOutline (text : String) : '\n' ∉ (escapeOutline text).toList := by
  rw [mem_escapeOutline (by decide), escapeLabel, String.toList_ofList]
  exact lineFeed_notMem_escapeLabelChars text.toList

/-- The same holds in an outline. -/
theorem return_notMem_escapeOutline {text : String} :
    '\r' ∉ (escapeOutline text).toList ↔ PairsReturns text.toList := by
  rw [mem_escapeOutline (by decide), return_notMem_escapeLabel]

end ManifestAtlas
