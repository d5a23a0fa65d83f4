import ManifestAtlas.Text.Blank

/-!
# Lists without repeats

`distinct` keeps the first occurrence of every text of a list, and
`distinctVisible` does the same for the texts that are not blank.

Main statements: `distinct` has no repeats and the same elements as the list
(`nodup_distinct`, `mem_distinct`), and keeps a list that has no repeats
(`distinct_of_nodup`); `distinctVisible` has the elements that are not blank
(`mem_distinctVisible`).
-/

namespace ManifestAtlas

/-- The first occurrences in a list, in order. -/
def distinct {α : Type} [DecidableEq α] : List α → List α
  | [] => []
  | x :: xs => x :: (distinct xs).filter (· ≠ x)

/-- The first occurrences of the texts that are not blank. -/
def distinctVisible (texts : List String) : List String :=
  distinct (texts.filter fun t => !isBlankText t)

theorem mem_distinct {α : Type} [DecidableEq α] {x : α} {xs : List α} :
    x ∈ distinct xs ↔ x ∈ xs := by
  induction xs with
  | nil => simp [distinct]
  | cons y ys ih =>
    simp only [distinct, List.mem_cons, List.mem_filter, ih, decide_eq_true_eq]
    constructor
    · rintro (h | ⟨h, _⟩)
      · exact .inl h
      · exact .inr h
    · rintro (h | h)
      · exact .inl h
      · by_cases hxy : x = y
        · exact .inl hxy
        · exact .inr ⟨h, hxy⟩

theorem mem_distinctVisible {text : String} {texts : List String} :
    text ∈ distinctVisible texts ↔ text ∈ texts ∧ isBlankText text = false := by
  rw [distinctVisible, mem_distinct, List.mem_filter, Bool.not_eq_true']

theorem nodup_distinct {α : Type} [DecidableEq α] (xs : List α) : (distinct xs).Nodup := by
  induction xs with
  | nil => simp [distinct]
  | cons y ys ih =>
    simp only [distinct, List.nodup_cons, List.mem_filter, decide_eq_true_eq]
    exact ⟨fun h => h.2 rfl, ih.filter _⟩

theorem distinct_of_nodup {α : Type} [DecidableEq α] {xs : List α} (h : xs.Nodup) :
    distinct xs = xs := by
  induction xs with
  | nil => rfl
  | cons y ys ih =>
    rw [List.nodup_cons] at h
    rw [distinct, ih h.2, List.filter_eq_self.2]
    intro x hx
    simpa using fun e : x = y => h.1 (e ▸ hx)

end ManifestAtlas
