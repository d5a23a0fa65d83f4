import Mathlib.Data.List.Nodup
import Mathlib.Data.Set.Function
import ManifestAtlas.Report.Lint

/-!
# First and repeated occurrences

Two functions walk over a list of texts and look at what came before.
`distinct` keeps the first occurrence of every text.  `repeated` names the
texts that come again, each when it comes for the second time.

There are four groups.

* First occurrences.  `FirstOccurrences` says which list of texts is meant by
  "each once, in the order of their first occurrence", without a function that
  builds it.  `firstOccurrences_distinct_filter` shows that `distinct` builds
  it.
* Lists in a row.  `distinct_append` and `distinct_flatMap` let the repeats of
  a list be dropped part by part.
* Texts that are not blank.  `distinctVisible` builds their first occurrences
  (`firstOccurrences_distinctVisible`), part by part as well
  (`distinctVisible_append`).
* Repeated texts.  `mem_repeated` says when a text is named, and
  `repeated_eq_nil_iff` that nothing is named exactly when nothing repeats.
  `SecondOccurrences` is for them what `FirstOccurrences` is for the texts that
  are kept (`secondOccurrences_repeated`).
-/

namespace ManifestAtlas

/-! ## First occurrences -/

/-- The texts of `all` that have a property, each once and in the order in which they first
occur in `all`. -/
structure FirstOccurrences (all : List String) (p : String → Prop) (firsts : List String) :
    Prop where
  mem_iff : ∀ text, text ∈ firsts ↔ text ∈ all ∧ p text
  ordered : firsts.Pairwise fun a b => all.idxOf a < all.idxOf b

/-- Dropping texts before or after the repeats are dropped makes no difference. -/
theorem distinct_filter {α : Type} [DecidableEq α] (p : α → Bool) (xs : List α) :
    distinct (xs.filter p) = (distinct xs).filter p := by
  induction xs with
  | nil => rfl
  | cons x xs ih =>
    by_cases hx : p x = true
    · rw [List.filter_cons_of_pos hx, distinct, distinct, List.filter_cons_of_pos hx, ih,
        List.filter_comm]
    · rw [List.filter_cons_of_neg hx, distinct, List.filter_cons_of_neg hx, ih,
        List.filter_filter]
      refine List.filter_congr fun y _ => ?_
      by_cases hy : p y = true
      · have hyx : y ≠ x := fun e => hx (e ▸ hy)
        simp [hy, hyx]
      · simp [hy]

/-- A map that keeps the elements of a list apart keeps its first occurrences. -/
theorem distinct_map {α β : Type} [DecidableEq α] [DecidableEq β] {f : α → β} {xs : List α}
    (hf : Set.InjOn f {x | x ∈ xs}) : distinct (xs.map f) = (distinct xs).map f := by
  induction xs with
  | nil => rfl
  | cons x xs ih =>
    have hrest : Set.InjOn f {y | y ∈ xs} := hf.mono fun _ => List.mem_cons_of_mem x
    rw [List.map_cons, distinct, distinct, List.map_cons, ih hrest, List.filter_map]
    refine congrArg _ (congrArg _ (List.filter_congr fun y hy => ?_))
    have hxy : f y = f x ↔ y = x :=
      hf.eq_iff (List.mem_cons_of_mem x (mem_distinct.1 hy)) List.mem_cons_self
    simp [hxy]

/-- Dropping repeats keeps a part of the list, in order. -/
theorem distinct_sublist {α : Type} [DecidableEq α] (xs : List α) :
    (distinct xs).Sublist xs := by
  induction xs with
  | nil => exact List.Sublist.refl _
  | cons x xs ih => exact (List.filter_sublist.trans ih).cons_cons x

/-- The first occurrences stand in the order in which they occur. -/
theorem pairwise_idxOf_distinct {α : Type} [DecidableEq α] (xs : List α) :
    (distinct xs).Pairwise fun a b => xs.idxOf a < xs.idxOf b := by
  induction xs with
  | nil => exact List.Pairwise.nil
  | cons x xs ih =>
    have hsucc : ∀ y, y ∈ (distinct xs).filter (· ≠ x) →
        (x :: xs).idxOf y = xs.idxOf y + 1 := by
      intro y hy
      have hyx : y ≠ x := by simpa using (List.mem_filter.1 hy).2
      exact List.idxOf_cons_ne _ (Ne.symm hyx)
    rw [distinct, List.pairwise_cons]
    refine ⟨?_, ?_⟩
    · intro y hy
      rw [hsucc y hy, List.idxOf_cons_self]
      omega
    · refine (ih.filter _).imp_of_mem ?_
      intro a b ha hb hab
      rw [hsucc a ha, hsucc b hb]
      omega

theorem firstOccurrences_distinct_filter (all : List String) (p : String → Bool) :
    FirstOccurrences all (fun text => p text = true) (distinct (all.filter p)) where
  mem_iff text := by rw [mem_distinct, List.mem_filter]
  ordered := by
    rw [distinct_filter]
    exact (pairwise_idxOf_distinct all).filter _

/-- There are several first occurrences as soon as two different texts occur. -/
theorem one_lt_length_distinct {α : Type} [DecidableEq α] {xs : List α} :
    1 < (distinct xs).length ↔ ∃ a ∈ xs, ∃ b ∈ xs, a ≠ b := by
  have hnodup := nodup_distinct xs
  have hmem : ∀ x, x ∈ xs ↔ x ∈ distinct xs := fun x => mem_distinct.symm
  simp only [hmem]
  generalize distinct xs = firsts at hnodup ⊢
  constructor
  · intro h
    match firsts, h, hnodup with
    | a :: b :: rest, _, hnodup =>
      have hab : a ≠ b := fun e => by simp [e] at hnodup
      exact ⟨a, by simp, b, by simp, hab⟩
  · intro hdifferent
    obtain ⟨a, ha, b, hb, hab⟩ := hdifferent
    by_contra hlen
    match firsts, ha, hb, hlen with
    | [x], ha, hb, _ =>
      exact hab ((List.mem_singleton.1 ha).trans (List.mem_singleton.1 hb).symm)
    | _ :: _ :: _, _, _, hlen => exact hlen (by simp)

/-! ## Lists in a row -/

/-- The repeats of two lists in a row: those of each, and what the second has in common with the
first. -/
theorem distinct_append {α : Type} [DecidableEq α] (xs ys : List α) :
    distinct (xs ++ ys) = distinct xs ++ (distinct ys).filter (· ∉ xs) := by
  induction xs with
  | nil => simp [distinct]
  | cons x xs ih =>
    rw [List.cons_append, distinct, distinct, ih, List.filter_append, List.filter_filter,
      List.cons_append]
    refine congrArg _ (congrArg _ (List.filter_congr fun y _ => ?_))
    simp [not_or]

theorem distinct_concat {α : Type} [DecidableEq α] (xs : List α) (x : α) :
    distinct (xs ++ [x]) = if x ∈ xs then distinct xs else distinct xs ++ [x] := by
  rw [distinct_append]
  by_cases hx : x ∈ xs
  · simp [distinct, hx]
  · simp [distinct, hx]

/-- Repeats may be dropped in the parts of a list first. -/
theorem distinct_flatMap {α β : Type} [DecidableEq β] (f : α → List β) (xs : List α) :
    distinct (xs.flatMap fun x => distinct (f x)) = distinct (xs.flatMap f) := by
  induction xs with
  | nil => rfl
  | cons x xs ih =>
    rw [List.flatMap_cons, List.flatMap_cons, distinct_append, distinct_append, ih,
      distinct_of_nodup (nodup_distinct _)]
    simp only [mem_distinct]

/-! ## Texts that are not blank -/

theorem firstOccurrences_distinctVisible (texts : List String) :
    FirstOccurrences texts (fun text => isBlankText text = false) (distinctVisible texts) := by
  have hfirst := firstOccurrences_distinct_filter texts fun text => !isBlankText text
  simp only [Bool.not_eq_true'] at hfirst
  exact hfirst

theorem distinctVisible_sublist (texts : List String) :
    (distinctVisible texts).Sublist texts :=
  (distinct_sublist _).trans List.filter_sublist

/-- The visible texts of two lists in a row: those of the first, and those of the second that the
first does not have. -/
theorem distinctVisible_append (xs ys : List String) :
    distinctVisible (xs ++ ys) =
      distinctVisible xs ++ (distinctVisible ys).filter (· ∉ xs) := by
  rw [distinctVisible, distinctVisible, distinctVisible, List.filter_append, distinct_append]
  refine congrArg _ (List.filter_congr fun text htext => ?_)
  have hvisible := (mem_distinctVisible.1 htext).2
  simp [hvisible]

theorem distinctVisible_distinctVisible (texts : List String) :
    distinctVisible (distinctVisible texts) = distinctVisible texts := by
  have hvisible : ∀ text ∈ distinctVisible texts, (!isBlankText text) = true := by
    intro text htext
    simpa using (mem_distinctVisible.1 htext).2
  rw [distinctVisible, List.filter_eq_self.2 hvisible]
  exact distinct_of_nodup (nodup_distinct _)

/-! ## Repeated texts -/

/-- The texts of `all` that occur at least twice, each once and in the order in which they occur
for the second time (`idxOfNth` counts the occurrences from zero). -/
structure SecondOccurrences (all repeats : List String) : Prop where
  mem_iff : ∀ text, text ∈ repeats ↔ 2 ≤ all.count text
  ordered : repeats.Pairwise fun a b => all.idxOfNth a 1 < all.idxOfNth b 1

/-- A text is named when it comes for the second time, counting what came before the list. -/
theorem mem_repeated {before ids : List String} {id : String} :
    id ∈ repeated before ids ↔ before.count id ≤ 1 ∧ 2 ≤ before.count id + ids.count id := by
  induction ids generalizing before with
  | nil =>
    simp only [repeated, List.not_mem_nil, List.count_nil, false_iff]
    omega
  | cons x ids ih =>
    rw [repeated]
    by_cases hx : x = id
    · subst hx
      have hnext : (x :: before).count x = before.count x + 1 := List.count_cons_self
      have hhere : (x :: ids).count x = ids.count x + 1 := List.count_cons_self
      split
      · rename_i hone
        simp only [List.mem_cons, true_or, true_iff]
        omega
      · rename_i hone
        rw [ih, hnext, hhere]
        omega
    · have hnext : (x :: before).count id = before.count id := List.count_cons_of_ne hx
      have hhere : (x :: ids).count id = ids.count id := List.count_cons_of_ne hx
      have hne : id ≠ x := Ne.symm hx
      split
      · rw [List.mem_cons, or_iff_right hne, ih, hnext, hhere]
      · rw [ih, hnext, hhere]

theorem repeated_eq_nil_iff {ids : List String} : repeated [] ids = [] ↔ ids.Nodup := by
  rw [List.eq_nil_iff_forall_not_mem, List.nodup_iff_count_le_one]
  refine forall_congr' fun id => ?_
  rw [mem_repeated, List.count_nil]
  omega

theorem nodup_repeated (before ids : List String) : (repeated before ids).Nodup := by
  induction ids generalizing before with
  | nil => exact List.nodup_nil
  | cons id ids ih =>
    rw [repeated]
    split
    · rename_i hone
      refine List.nodup_cons.2 ⟨fun hmem => ?_, ih (id :: before)⟩
      have hcount := (mem_repeated.1 hmem).1
      rw [List.count_cons_self] at hcount
      omega
    · exact ih (id :: before)

theorem repeated_append (before xs ys : List String) :
    repeated before (xs ++ ys) = repeated before xs ++ repeated (xs.reverse ++ before) ys := by
  induction xs generalizing before with
  | nil => rfl
  | cons x xs ih =>
    rw [List.cons_append, repeated, repeated, ih, List.reverse_cons, List.append_assoc,
      List.singleton_append]
    split
    · rfl
    · rfl

theorem repeated_concat (ids : List String) (id : String) :
    repeated [] (ids ++ [id]) = repeated [] ids ++ if ids.count id = 1 then [id] else [] := by
  rw [repeated_append, List.append_nil, repeated, repeated, List.count_reverse]

/-- Texts are named in the order in which they come for the second time, counting what came before
the list. -/
theorem pairwise_idxOfNth_repeated (before ids : List String) :
    (repeated before ids).Pairwise fun a b =>
      ids.idxOfNth a (1 - before.count a) < ids.idxOfNth b (1 - before.count b) := by
  induction ids generalizing before with
  | nil => exact List.Pairwise.nil
  | cons x ids ih =>
    -- What is named behind `x` is found one place further on, also when `x` itself counts for it.
    have hsucc : ∀ a ∈ repeated (x :: before) ids, (x :: ids).idxOfNth a (1 - before.count a) =
        ids.idxOfNth a (1 - (x :: before).count a) + 1 := by
      intro a ha
      have hcount := (mem_repeated.1 ha).1
      by_cases hxa : x = a
      · subst hxa
        rw [List.count_cons_self] at hcount ⊢
        have hnone : before.count x = 0 := by omega
        rw [hnone, List.idxOfNth_cons_succ_of_beq (beq_self_eq_true x)]
      · rw [List.count_cons_of_ne hxa, List.idxOfNth_cons_of_not_beq (beq_false_of_ne hxa)]
    have hrest : (repeated (x :: before) ids).Pairwise fun a b =>
        (x :: ids).idxOfNth a (1 - before.count a) <
          (x :: ids).idxOfNth b (1 - before.count b) := by
      refine (ih (x :: before)).imp_of_mem fun ha hb hab => ?_
      rw [hsucc _ ha, hsucc _ hb]
      exact Nat.succ_lt_succ hab
    rw [repeated]
    split
    · rename_i hone
      refine List.pairwise_cons.2 ⟨fun b hb => ?_, hrest⟩
      rw [hsucc b hb, hone, List.idxOfNth_cons_zero_of_beq (beq_self_eq_true x)]
      exact Nat.succ_pos _
    · exact hrest

theorem secondOccurrences_repeated (ids : List String) :
    SecondOccurrences ids (repeated [] ids) where
  mem_iff id := by
    rw [mem_repeated, List.count_nil]
    omega
  ordered := pairwise_idxOfNth_repeated [] ids

end ManifestAtlas
