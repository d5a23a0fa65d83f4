import Mathlib
import ManifestAtlas.Proofs.LabelEscapes

/-!
# Code spans

Markdown opens a code span with a run of backticks and closes it with the next
run of exactly as many.  `spanRest?` reads a text in this way and returns what
follows the span.

`inlineCode` puts one backtick on each side of a text without backticks, and
two on each side of any other text.  Its runs are those of the text, with one
more at each end (`IsFenced.backtickRuns_eq`, `backtickRuns_joinLines`).  So the
span reaches as far as it should unless the text has a run of exactly two
backticks, which closes it early (`inlineCode_isCodeSpan_iff`).
-/

namespace ManifestAtlas

/-! ## Reading a code span -/

/-- A run that has come to its end, if there is one. -/
def closedRun (run : Nat) : List Nat :=
  if run = 0 then [] else [run]

/-- The lengths of the runs of backticks in a text that has `run` backticks directly in front of
it. -/
def runsFrom (run : Nat) : List Char → List Nat
  | [] => closedRun run
  | c :: rest => if c = backtick then runsFrom (run + 1) rest else closedRun run ++ runsFrom 0 rest

/-- The lengths of the runs of backticks in a text. -/
def backtickRuns (text : List Char) : List Nat :=
  runsFrom 0 text

/-- What follows the first run of exactly `n` backticks, in a text that has `run` backticks
directly in front of it. -/
def closeSpan? (n run : Nat) : List Char → Option (List Char)
  | [] => if run = n then some [] else none
  | c :: rest =>
    if c = backtick then closeSpan? n (run + 1) rest
    else if run = n then some (c :: rest) else closeSpan? n 0 rest

/-- What follows the code span that a text starts with. -/
def spanRest? (text : List Char) : Option (List Char) :=
  let opening := text.takeWhile (· = backtick)
  if opening = [] then none else closeSpan? opening.length 0 (text.dropWhile (· = backtick))

/-- The whole text is one code span. -/
def IsCodeSpan (text : List Char) : Prop :=
  spanRest? text = some []

/-! ## Runs in texts that are put together -/

section

variable {n run : Nat} {c : Char}

theorem mem_closedRun : n ∈ closedRun run ↔ n = run ∧ 0 < n := by
  rw [closedRun]
  split <;> simp <;> omega

theorem runsFrom_cons_of_ne (h : c ≠ backtick) (text : List Char) :
    runsFrom run (c :: text) = closedRun run ++ runsFrom 0 text := by
  rw [runsFrom, if_neg h]

/-- Any other character ends the run in front of it. -/
theorem runsFrom_append_cons (h : c ≠ backtick) (text more : List Char) :
    runsFrom run (text ++ c :: more) = runsFrom run text ++ runsFrom 0 more := by
  induction text generalizing run with
  | nil => exact runsFrom_cons_of_ne h more
  | cons x text ih =>
    rw [List.cons_append, runsFrom, runsFrom]
    split
    · exact ih
    · rw [ih, List.append_assoc]

theorem runsFrom_replicate_append (n : Nat) (text : List Char) :
    runsFrom run (List.replicate n backtick ++ text) = runsFrom (run + n) text := by
  induction n generalizing run with
  | zero => rfl
  | succ n ih =>
    rw [List.replicate_succ, List.cons_append, runsFrom, if_pos rfl, ih, Nat.add_assoc,
      Nat.add_comm 1 n]

/-- A nonempty text without backticks ends a run as a single character does. -/
theorem runsFrom_plain_append {plain : List Char} (hne : plain ≠ []) (h : backtick ∉ plain)
    (text : List Char) : runsFrom run (plain ++ text) = closedRun run ++ runsFrom 0 text := by
  induction plain generalizing run with
  | nil => exact absurd rfl hne
  | cons x plain ih =>
    obtain ⟨hx, hplain⟩ := not_or.1 (List.mem_cons.not.1 h)
    rw [List.cons_append, runsFrom_cons_of_ne (Ne.symm hx)]
    by_cases hnil : plain = []
    · rw [hnil, List.nil_append]
    · rw [ih hnil hplain]
      rfl

theorem backtickRuns_eq_nil {text : List Char} (h : backtick ∉ text) : backtickRuns text = [] := by
  by_cases hnil : text = []
  · rw [hnil]
    rfl
  · have hplain : runsFrom 0 (text ++ []) = closedRun 0 ++ runsFrom 0 [] :=
      runsFrom_plain_append hnil h []
    rwa [List.append_nil] at hplain

end

/-! ## Line breaks -/

/-- What stands for a character in a code span. -/
def spanChar (c : Char) : List Char :=
  if c = '\r' ∨ c = '\n' then lineBreak else [c]

theorem joinLines_cons {c : Char} {rest : List Char}
    (h : ¬(c = '\r' ∧ rest.head? = some '\n')) :
    joinLines (c :: rest) = spanChar c ++ joinLines rest := by
  rw [joinLines, replacePair_cons h]
  rfl

theorem joinLines_pair (rest : List Char) :
    joinLines ('\r' :: '\n' :: rest) = lineBreak ++ joinLines rest := by
  have hbreak : lineBreak.flatMap spanChar = lineBreak := by decide
  have hpair : replacePair '\r' '\n' lineBreak ('\r' :: '\n' :: rest) =
      lineBreak ++ replacePair '\r' '\n' lineBreak rest := by
    rw [replacePair, if_pos ⟨rfl, rfl⟩]
  show (replacePair '\r' '\n' lineBreak ('\r' :: '\n' :: rest)).flatMap spanChar = _
  rw [hpair, List.flatMap_append, hbreak]
  rfl

/-- A line break ends a run, and so does the token that stands for it. -/
theorem runsFrom_spanChar_append (run : Nat) (c : Char) (text : List Char) :
    runsFrom run (spanChar c ++ text) = runsFrom run (c :: text) := by
  rw [spanChar]
  split
  · rename_i hbreak
    have hc : c ≠ backtick := by rcases hbreak with rfl | rfl <;> decide
    rw [runsFrom_plain_append (by decide) (by decide), runsFrom_cons_of_ne hc]
  · rfl

/-- Putting a text on one line keeps its runs of backticks. -/
theorem runsFrom_joinLines (run : Nat) (text : List Char) :
    runsFrom run (joinLines text) = runsFrom run text := by
  have hcons : ∀ {c : Char} {rest : List Char} (run : Nat),
      (∀ r, runsFrom r (joinLines rest) = runsFrom r rest) →
        runsFrom run (c :: joinLines rest) = runsFrom run (c :: rest) := by
    intro c rest run ih
    rw [runsFrom, runsFrom, ih, ih]
  fun_induction replacePair '\r' '\n' lineBreak text generalizing run with
  | case1 => rfl
  | case2 c =>
    rw [joinLines_cons (by simp), runsFrom_spanChar_append]
    rfl
  | case3 c next rest h ih =>
    obtain ⟨rfl, rfl⟩ := h
    rw [joinLines_pair, runsFrom_plain_append (by decide) (by decide), ih,
      runsFrom_cons_of_ne (by decide), runsFrom_cons_of_ne (by decide)]
    rfl
  | case4 c next rest h ih =>
    rw [joinLines_cons (by simpa using h), runsFrom_spanChar_append]
    exact hcons run ih

theorem backtickRuns_joinLines (text : List Char) :
    backtickRuns (joinLines text) = backtickRuns text :=
  runsFrom_joinLines 0 text

theorem joinLines_ne_nil {text : List Char} (h : text ≠ []) : joinLines text ≠ [] := by
  obtain ⟨c, rest, rfl⟩ := List.exists_cons_of_ne_nil h
  by_cases hpair : c = '\r' ∧ rest.head? = some '\n'
  · obtain ⟨rfl, hnext⟩ := hpair
    obtain ⟨more, rfl⟩ := List.head?_eq_some_iff.1 hnext
    rw [joinLines_pair]
    exact List.append_ne_nil_of_left_ne_nil (by decide) _
  · rw [joinLines_cons hpair, spanChar]
    split
    · exact List.append_ne_nil_of_left_ne_nil (by decide) _
    · exact List.cons_ne_nil _ _

/-! ## Texts between two fences -/

/-- A text that starts and ends with a run of exactly `n` backticks, and what stands between the
two. -/
structure IsFenced (n : Nat) (text inner : List Char) : Prop where
  eq : text = List.replicate n backtick ++ inner ++ List.replicate n backtick
  nonempty : inner ≠ []
  head : inner.head? ≠ some backtick
  last : inner.getLast? ≠ some backtick

section

variable {n run : Nat} {c : Char} {text inner more : List Char}

theorem closeSpan?_replicate (n run count : Nat) :
    closeSpan? n run (List.replicate count backtick) =
      if run + count = n then some [] else none := by
  induction count generalizing run with
  | zero => rfl
  | succ count ih =>
    rw [List.replicate_succ, closeSpan?, if_pos rfl, ih, Nat.add_assoc, Nat.add_comm 1 count]

/-- Without a run of the right length, the search goes on behind the text. -/
theorem closeSpan?_of_notMem (hc : c ≠ backtick) (hn : 0 < n) (h : n ∉ runsFrom run text) :
    closeSpan? n run (text ++ c :: more) = closeSpan? n 0 more := by
  induction text generalizing run with
  | nil =>
    have hrun : run ≠ n := fun heq => h (mem_closedRun.2 ⟨heq.symm, hn⟩)
    rw [List.nil_append, closeSpan?, if_neg hc, if_neg hrun]
  | cons x text ih =>
    rw [runsFrom] at h
    rw [List.cons_append, closeSpan?]
    split
    · rename_i hx
      rw [if_pos hx] at h
      exact ih h
    · rename_i hx
      rw [if_neg hx, List.mem_append, not_or] at h
      rw [if_neg fun heq => h.1 (mem_closedRun.2 ⟨heq.symm, hn⟩)]
      exact ih h.2

/-- A run of the right length closes the span before the end of the text. -/
theorem closeSpan?_of_mem (hc : c ≠ backtick) (h : n ∈ runsFrom run text) :
    ∃ rest, closeSpan? n run (text ++ c :: more) = some (rest ++ c :: more) := by
  induction text generalizing run with
  | nil =>
    obtain ⟨hrun, -⟩ := mem_closedRun.1 h
    exact ⟨[], by rw [List.nil_append, closeSpan?, if_neg hc, if_pos hrun.symm]⟩
  | cons x text ih =>
    rw [runsFrom] at h
    rw [List.cons_append, closeSpan?]
    split
    · rename_i hx
      rw [if_pos hx] at h
      exact ih h
    · rename_i hx
      rw [if_neg hx, List.mem_append] at h
      by_cases hrun : run = n
      · exact ⟨x :: text, by rw [if_pos hrun, List.cons_append]⟩
      · rw [if_neg hrun]
        exact ih (h.resolve_left fun hmem => hrun (mem_closedRun.1 hmem).1.symm)

/-- The last character between two fences, with the runs in front of it. -/
theorem IsFenced.exists_last (h : IsFenced n text inner) :
    ∃ front c, c ≠ backtick ∧ inner = front ++ [c] ∧
      ∀ run, runsFrom run front = runsFrom run inner := by
  have hlast := List.dropLast_append_getLast h.nonempty
  have hc : inner.getLast h.nonempty ≠ backtick := by
    rintro heq
    exact h.last (by rw [List.getLast?_eq_getLast_of_ne_nil h.nonempty, heq])
  refine ⟨_, _, hc, hlast.symm, fun run => ?_⟩
  rw [← hlast, runsFrom_append_cons hc, show runsFrom 0 [] = [] from rfl, List.append_nil, hlast]

/-- The opening fence is a run of its own. -/
theorem IsFenced.runsFrom_inner (h : IsFenced n text inner) (run : Nat) :
    runsFrom run inner = closedRun run ++ backtickRuns inner := by
  obtain ⟨c, rest, rfl⟩ := List.exists_cons_of_ne_nil h.nonempty
  have hc : c ≠ backtick := fun heq => h.head (by rw [heq]; rfl)
  rw [backtickRuns, runsFrom_cons_of_ne hc, runsFrom_cons_of_ne hc]
  rfl

/-- Fences add a run at each end. -/
theorem IsFenced.backtickRuns_eq (h : IsFenced n text inner) (hn : 0 < n) :
    backtickRuns text = n :: backtickRuns inner ++ [n] := by
  obtain ⟨front, c, hc, hinner, hfront⟩ := h.exists_last
  have hrun : closedRun n = [n] := if_neg hn.ne'
  have hclosing : runsFrom 0 (List.replicate n backtick) = [n] := by
    have hall : runsFrom 0 (List.replicate n backtick ++ []) = runsFrom (0 + n) [] :=
      runsFrom_replicate_append n []
    rwa [List.append_nil, Nat.zero_add, show runsFrom n [] = closedRun n from rfl, hrun] at hall
  calc backtickRuns text
      = runsFrom n (front ++ c :: List.replicate n backtick) := by
        rw [backtickRuns, h.eq, List.append_assoc, runsFrom_replicate_append, Nat.zero_add, hinner,
          List.append_assoc]
        rfl
    _ = runsFrom n inner ++ [n] := by rw [runsFrom_append_cons hc, hfront, hclosing]
    _ = n :: backtickRuns inner ++ [n] := by rw [h.runsFrom_inner, hrun]; rfl

/-- Behind the opening fence the search for the closing one starts. -/
theorem IsFenced.spanRest?_eq (h : IsFenced n text inner) (hn : 0 < n) :
    spanRest? text = closeSpan? n 0 (inner ++ List.replicate n backtick) := by
  obtain ⟨c, rest, rfl⟩ := List.exists_cons_of_ne_nil h.nonempty
  have hc : c ≠ backtick := fun heq => h.head (by rw [heq]; rfl)
  have hfence : ∀ x ∈ List.replicate n backtick, decide (x = backtick) = true := by simp
  have hopening : text.takeWhile (· = backtick) = List.replicate n backtick := by
    rw [h.eq, List.append_assoc, List.takeWhile_append_of_pos hfence, List.cons_append,
      List.takeWhile_cons_of_neg (by simpa using hc), List.append_nil]
  have hrest : text.dropWhile (· = backtick) = c :: rest ++ List.replicate n backtick := by
    rw [h.eq, List.append_assoc, List.dropWhile_append_of_pos hfence, List.cons_append,
      List.dropWhile_cons_of_neg (by simpa using hc)]
  have hne : List.replicate n backtick ≠ [] := by simpa using hn.ne'
  simp only [spanRest?, hopening, hrest, if_neg hne, List.length_replicate]

/-- A fenced text is one code span unless a run between the fences is as long as they are. -/
theorem IsFenced.isCodeSpan_iff (h : IsFenced n text inner) (hn : 0 < n) :
    IsCodeSpan text ↔ n ∉ backtickRuns inner := by
  obtain ⟨front, c, hc, hinner, hfront⟩ := h.exists_last
  have hread : spanRest? text = closeSpan? n 0 (front ++ c :: List.replicate n backtick) := by
    rw [h.spanRest?_eq hn, hinner, List.append_assoc]
    rfl
  rw [IsCodeSpan, hread, backtickRuns, ← hfront]
  by_cases hmem : n ∈ runsFrom 0 front
  · obtain ⟨rest, hrest⟩ : ∃ rest, closeSpan? n 0 (front ++ c :: List.replicate n backtick) =
        some (rest ++ c :: List.replicate n backtick) := closeSpan?_of_mem hc hmem
    simp [hrest, hmem]
  · rw [closeSpan?_of_notMem hc hn hmem, closeSpan?_replicate]
    simp [hmem]

end

/-! ## Inline code -/

/-- A code span of the outline has fences of one or two backticks, and the runs of its text between
them.  There is only one run with fences of one. -/
theorem exists_isFenced_inlineCode {text : String} (h : text ≠ "") :
    ∃ n inner, IsFenced n (inlineCode text).toList inner ∧
      backtickRuns inner = backtickRuns text.toList ∧
      (n = 1 ∧ backtickRuns inner = [] ∨ n = 2) := by
  have hne : joinLines text.toList ≠ [] := joinLines_ne_nil fun hnil =>
    h (String.toList_eq_nil_iff.1 hnil)
  -- A text with a backtick gets fences of two, and a space inside each of them.
  by_cases hmark : backtick ∈ joinLines text.toList
  · have hchars : (inlineCode text).toList =
        "`` ".toList ++ joinLines text.toList ++ " ``".toList := by
      rw [inlineCode, String.toList_ofList, if_pos hmark]
    refine ⟨2, ' ' :: (joinLines text.toList ++ [' ']), ⟨?_, List.cons_ne_nil _ _, ?_, ?_⟩, ?_,
      .inr rfl⟩
    · rw [hchars]
      simp [backtick]
    · simp [backtick]
    · simp [List.getLast?_cons, backtick]
    · rw [backtickRuns, runsFrom_cons_of_ne (by decide), runsFrom_append_cons (by decide)]
      show [] ++ (runsFrom 0 _ ++ []) = _
      rw [List.nil_append, List.append_nil, runsFrom_joinLines]
      rfl
  · have hchars : (inlineCode text).toList = backtick :: (joinLines text.toList ++ [backtick]) := by
      rw [inlineCode, String.toList_ofList, if_neg hmark]
    refine ⟨1, joinLines text.toList, ⟨hchars, hne, ?_, ?_⟩, backtickRuns_joinLines _,
      .inl ⟨rfl, backtickRuns_eq_nil hmark⟩⟩
    · exact fun hhead => hmark (List.mem_of_head? hhead)
    · exact fun hlast => hmark (List.mem_of_getLast? hlast)

/-- A code span of the outline stands on one line, between two runs of exactly one or two backticks,
and all other runs in it are those of its text.  The whole of it is one code span unless the text
has a run of exactly two backticks. -/
theorem inlineCode_isCodeSpan_iff {text : String} (h : text ≠ "") :
    (∀ c ∈ (inlineCode text).toList, c ≠ '\r' ∧ c ≠ '\n') ∧
      (∃ n inner, (n = 1 ∨ n = 2) ∧ IsFenced n (inlineCode text).toList inner ∧
        backtickRuns (inlineCode text).toList = n :: backtickRuns text.toList ++ [n]) ∧
      (IsCodeSpan (inlineCode text).toList ↔ 2 ∉ backtickRuns text.toList) := by
  obtain ⟨n, inner, hfenced, hruns, hn⟩ := exists_isFenced_inlineCode h
  have hone : n = 1 ∨ n = 2 := hn.imp And.left id
  have hpos : 0 < n := by omega
  refine ⟨fun c hc => inlineCode_breakFree hc, ⟨n, inner, hone, hfenced, ?_⟩, ?_⟩
  · rw [hfenced.backtickRuns_eq hpos, hruns]
  · rw [hfenced.isCodeSpan_iff hpos, hruns]
    rcases hn with ⟨rfl, hnil⟩ | rfl
    · simp [← hruns, hnil]
    · exact Iff.rfl

/-- Runs of one and of three backticks do not close the span, at the edges of the text and beside
line breaks either. -/
theorem edgedCode_isCodeSpan :
    "`a```\r\n`" ≠ "" ∧ IsCodeSpan (inlineCode "`a```\r\n`").toList :=
  have hne : "`a```\r\n`" ≠ "" := by decide
  have hruns : 2 ∉ backtickRuns "`a```\r\n`".toList := by decide
  ⟨hne, (inlineCode_isCodeSpan_iff hne).2.2.2 hruns⟩

/-- A run of exactly two backticks is not the last one of that length, and closes the span early. -/
theorem pairedCode_closes_early :
    "a``b" ≠ "" ∧ backtickRuns (inlineCode "a``b").toList = [2, 2, 2] ∧
      spanRest? (inlineCode "a``b").toList = some "b ``".toList := by
  decide

end ManifestAtlas
