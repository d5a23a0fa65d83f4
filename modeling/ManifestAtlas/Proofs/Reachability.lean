import Mathlib.Logic.Relation
import ManifestAtlas.Diagram.Cycles

/-!
# The search finds what can be reached

`explore` takes pending positions one by one and is given a bound on their
number.  `mem_reachable_iff` shows that the bound is never met: what
`reachable` lists are exactly the ends of the walks along one or more edges.

* Soundness (`forall_mem_explore`).  A property that edges hand on, and that
  the positions at the start have, holds of everything that is found.
* Completeness (`Frontier.explore`).  The invariant is that an edge out of a
  position already seen leads to one that is seen or pending.  Each position
  that is taken lowers `workLeft` by one: the pending positions, and the edges
  out of positions not seen yet.
-/

namespace ManifestAtlas

/-- A walk along one or more edges. -/
def Walk (edges : List (Nat × Nat)) : Nat → Nat → Prop :=
  Relation.TransGen fun i j => (i, j) ∈ edges

theorem successors_cons (e : Nat × Nat) (edges : List (Nat × Nat)) (i : Nat) :
    successors (e :: edges) i =
      if e.1 = i then e.2 :: successors edges i else successors edges i := by
  rw [successors, List.filterMap_cons]
  split <;> simp_all [successors]

theorem mem_successors {edges : List (Nat × Nat)} {i j : Nat} :
    j ∈ successors edges i ↔ (i, j) ∈ edges := by
  rw [successors, List.mem_filterMap]
  constructor
  · intro hedge
    obtain ⟨⟨a, b⟩, he, h⟩ := hedge
    split at h
    · rename_i ha
      obtain rfl : a = i := ha
      rw [← Option.some.inj h]
      exact he
    · cases h
  · intro h
    exact ⟨(i, j), h, if_pos rfl⟩

/-! ## Soundness -/

/-- What is found has every property that the start has and that edges hand on. -/
theorem forall_mem_explore {edges : List (Nat × Nat)} {p : Nat → Prop}
    (hedge : ∀ i j, p i → (i, j) ∈ edges → p j) {fuel : Nat} {pending seen : List Nat}
    (hpending : ∀ i ∈ pending, p i) (hseen : ∀ i ∈ seen, p i) :
    ∀ i ∈ explore edges fuel pending seen, p i := by
  fun_induction explore edges fuel pending seen with
  | case1 => exact hseen
  | case2 => exact hseen
  | case3 fuel i pending seen _ ih =>
    exact ih (fun j hj => hpending j (List.mem_cons_of_mem _ hj)) hseen
  | case4 fuel i pending seen _ ih =>
    have hi : p i := hpending i List.mem_cons_self
    refine ih ?_ ?_
    · intro j hj
      rcases List.mem_append.1 hj with hj | hj
      · exact hedge i j hi (mem_successors.1 hj)
      · exact hpending j (List.mem_cons_of_mem _ hj)
    · intro j hj
      rcases List.mem_cons.1 hj with rfl | hj
      · exact hi
      · exact hseen j hj

/-! ## Completeness -/

/-- Every edge out of a position already seen leads to one that is seen or pending. -/
def Frontier (edges : List (Nat × Nat)) (pending seen : List Nat) : Prop :=
  ∀ i ∈ seen, ∀ j, (i, j) ∈ edges → j ∈ seen ∨ j ∈ pending

/-- The number of positions that a search can still take: the pending ones, and one for each edge
out of a position not seen yet. -/
def workLeft (edges : List (Nat × Nat)) (pending seen : List Nat) : Nat :=
  pending.length + (edges.filter fun e => e.1 ∉ seen).length

private theorem length_successors_add {i : Nat} {seen : List Nat} (hi : i ∉ seen)
    (edges : List (Nat × Nat)) :
    (successors edges i).length + (edges.filter fun e => e.1 ∉ i :: seen).length =
      (edges.filter fun e => e.1 ∉ seen).length := by
  induction edges with
  | nil => rfl
  | cons e edges ih =>
    rw [successors_cons]
    by_cases he : e.1 = i
    · have hunseen : e.1 ∉ seen := he ▸ hi
      rw [if_pos he, List.filter_cons_of_neg (by simp [he]),
        List.filter_cons_of_pos (by simpa using hunseen), List.length_cons, List.length_cons]
      omega
    · rw [if_neg he]
      by_cases hs : e.1 ∈ seen
      · rw [List.filter_cons_of_neg (by simp [hs]), List.filter_cons_of_neg (by simp [hs]), ih]
      · rw [List.filter_cons_of_pos (by simp [he, hs]), List.filter_cons_of_pos (by simp [hs]),
          List.length_cons, List.length_cons]
        omega

/-- Taking a new position lowers the work by one: its edges move from the unseen ones to the
pending positions. -/
theorem workLeft_expand (edges : List (Nat × Nat)) (pending : List Nat) {i : Nat}
    {seen : List Nat} (hi : i ∉ seen) :
    workLeft edges (successors edges i ++ pending) (i :: seen) + 1 =
      workLeft edges (i :: pending) seen := by
  have hlen := length_successors_add hi edges
  rw [workLeft, workLeft, List.length_append, List.length_cons]
  omega

/-- Passing over a position seen before keeps the frontier. -/
theorem Frontier.skip {edges : List (Nat × Nat)} {i : Nat} {pending seen : List Nat}
    (h : Frontier edges (i :: pending) seen) (hi : i ∈ seen) : Frontier edges pending seen := by
  intro a ha b hab
  rcases h a ha b hab with hb | hb
  · exact .inl hb
  · rcases List.mem_cons.1 hb with rfl | hb
    · exact .inl hi
    · exact .inr hb

/-- Taking a new position keeps the frontier. -/
theorem Frontier.expand {edges : List (Nat × Nat)} {i : Nat} {pending seen : List Nat}
    (h : Frontier edges (i :: pending) seen) :
    Frontier edges (successors edges i ++ pending) (i :: seen) := by
  intro a ha b hab
  rcases List.mem_cons.1 ha with rfl | ha
  · exact .inr (List.mem_append_left _ (mem_successors.2 hab))
  · rcases h a ha b hab with hb | hb
    · exact .inl (List.mem_cons_of_mem _ hb)
    · rcases List.mem_cons.1 hb with rfl | hb
      · exact .inl List.mem_cons_self
      · exact .inr (List.mem_append_right _ hb)

/-- With enough fuel, a search ends with a set that holds its start and that no edge leaves. -/
theorem Frontier.explore {edges : List (Nat × Nat)} {fuel : Nat} {pending seen : List Nat}
    (h : Frontier edges pending seen) (hfuel : workLeft edges pending seen < fuel) :
    pending ⊆ explore edges fuel pending seen ∧ seen ⊆ explore edges fuel pending seen ∧
      Frontier edges [] (explore edges fuel pending seen) := by
  -- Every step leaves less work than the fuel that is left, so that `case1` is out of the question.
  fun_induction ManifestAtlas.explore edges fuel pending seen with
  | case1 => omega
  | case2 fuel seen => exact ⟨List.nil_subset _, fun _ hi => hi, h⟩
  | case3 fuel i pending seen hi ih =>
    have hi : i ∈ seen := by simpa using hi
    have hless : workLeft edges pending seen < fuel := by
      rw [workLeft, List.length_cons] at hfuel
      rw [workLeft]
      omega
    obtain ⟨hpending, hseen, hclosed⟩ := ih (h.skip hi) hless
    exact ⟨List.cons_subset.2 ⟨hseen hi, hpending⟩, hseen, hclosed⟩
  | case4 fuel i pending seen hi ih =>
    have hi : i ∉ seen := by simpa using hi
    have hless := workLeft_expand edges pending hi
    obtain ⟨hpending, hseen, hclosed⟩ := ih h.expand (by omega)
    refine ⟨?_, fun j hj => hseen (List.mem_cons_of_mem _ hj), hclosed⟩
    intro j hj
    rcases List.mem_cons.1 hj with rfl | hj
    · exact hseen List.mem_cons_self
    · exact hpending (List.mem_append_right _ hj)

/-- The positions that `reachable` lists are the ends of the walks. -/
theorem mem_reachable_iff {edges : List (Nat × Nat)} {i j : Nat} :
    j ∈ reachable edges i ↔ Walk edges i j := by
  constructor
  · intro h
    refine forall_mem_explore (p := Walk edges i) (fun a b ha hab => ha.tail hab) ?_ ?_ j h
    · exact fun a ha => .single (mem_successors.1 ha)
    · exact fun a ha => absurd ha List.not_mem_nil
  · intro h
    have hstart : Frontier edges (successors edges i) [] :=
      fun a ha => absurd ha List.not_mem_nil
    have hfuel : workLeft edges (successors edges i) [] < 2 * edges.length + 1 := by
      have hsucc : (successors edges i).length ≤ edges.length := List.length_filterMap_le _ _
      have hunseen := List.length_filter_le (fun e : Nat × Nat => e.1 ∉ []) edges
      rw [workLeft]
      omega
    -- Nothing is pending when the search ends, so that no edge leaves what it found.
    obtain ⟨hpending, _, hclosed⟩ := hstart.explore hfuel
    induction h with
    | single hij => exact hpending (mem_successors.2 hij)
    | tail _ hab ih => exact (hclosed _ ih _ hab).resolve_right List.not_mem_nil

end ManifestAtlas
