/-!
# Replacing characters and pairs of characters

Two substitutions on texts seen as lists of characters: `replaceChar` puts a
text in place of every occurrence of one character, and `replacePair` does the
same for every occurrence of two given characters in a row, scanning from left
to right.

Main statements: both leave a text alone that holds no occurrence
(`replaceChar_of_notMem`, `replacePair_of_notMem`), and `replaceChar` removes
the character unless the replacement brings it back (`notMem_replaceChar`).
What is in neither the text nor the replacement is not in the result either
(`notMem_replaceChar_of_notMem`, `notMem_replacePair_of_notMem`).
-/

namespace ManifestAtlas

/-- Puts `replacement` in place of every `c`. -/
def replaceChar (c : Char) (replacement : List Char) (text : List Char) : List Char :=
  text.flatMap fun x => if x = c then replacement else [x]

/-- Puts `replacement` in place of every `a` that is directly followed by `b`. -/
def replacePair (a b : Char) (replacement : List Char) : List Char → List Char
  | [] => []
  | [x] => [x]
  | x :: y :: rest =>
    if x = a ∧ y = b then replacement ++ replacePair a b replacement rest
    else x :: replacePair a b replacement (y :: rest)

@[simp] theorem replaceChar_nil (c : Char) (r : List Char) : replaceChar c r [] = [] := rfl

@[simp] theorem replaceChar_cons (c : Char) (r : List Char) (x : Char) (text : List Char) :
    replaceChar c r (x :: text) = (if x = c then r else [x]) ++ replaceChar c r text := rfl

theorem replaceChar_of_notMem {c : Char} {r text : List Char} (h : c ∉ text) :
    replaceChar c r text = text := by
  induction text with
  | nil => rfl
  | cons x rest ih =>
    simp only [List.mem_cons, not_or] at h
    rw [replaceChar_cons, ih h.2, if_neg (fun e => h.1 e.symm)]
    rfl

theorem notMem_replaceChar {c : Char} {r : List Char} (h : c ∉ r) (text : List Char) :
    c ∉ replaceChar c r text := by
  induction text with
  | nil => simp
  | cons x rest ih =>
    rw [replaceChar_cons, List.mem_append, not_or]
    refine ⟨?_, ih⟩
    split
    · exact h
    · rename_i hx
      simpa using fun e : c = x => hx e.symm

/-- A substitution brings in no other characters than those of the replacement. -/
theorem notMem_replaceChar_of_notMem {c a : Char} {r text : List Char} (hr : c ∉ r)
    (h : c ∉ text) : c ∉ replaceChar a r text := by
  induction text with
  | nil => simp
  | cons x rest ih =>
    simp only [List.mem_cons, not_or] at h
    rw [replaceChar_cons, List.mem_append, not_or]
    refine ⟨?_, ih h.2⟩
    split
    · exact hr
    · simpa using h.1

theorem notMem_replacePair_of_notMem {c a b : Char} {r text : List Char} (hr : c ∉ r)
    (h : c ∉ text) : c ∉ replacePair a b r text := by
  fun_induction replacePair a b r text with
  | case1 => simp
  | case2 => exact h
  | case3 x y rest _ ih =>
    simp only [List.mem_cons, not_or] at h
    simp [hr, ih h.2.2]
  | case4 x y rest _ ih =>
    simp only [List.mem_cons, not_or] at h
    simp [h.1, ih (by simpa [not_or] using h.2)]

theorem replacePair_of_notMem {a b : Char} {r text : List Char} (h : a ∉ text) :
    replacePair a b r text = text := by
  fun_induction replacePair a b r text with
  | case1 => rfl
  | case2 => rfl
  | case3 _ _ rest hx ih => simp [hx.1] at h
  | case4 x y rest hx ih =>
    simp only [List.mem_cons, not_or] at h
    rw [ih (by simpa [not_or] using h.2)]

end ManifestAtlas
