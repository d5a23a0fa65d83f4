import Mathlib.Data.List.Pairwise
import Mathlib.Data.List.Sort
import Mathlib.Data.String.Basic
import ManifestAtlas.Proofs.Occurrences
import ManifestAtlas.Proofs.Reachability

/-!
# Strongly connected components, and their listing

`AreStrongComponents` says which lists of positions are the strongly connected
components of a graph, whatever made them and in whatever order they come.
`areStrongComponents_strongComponents` shows that `strongComponents` makes
them.  A component is a cycle when its positions reach themselves along one or
more edges (`AreStrongComponents.isCyclic_iff`), and is then made of everything
on the way (`IsCycleOf`).

The second group of facts is about the order in which texts and lists of texts
are sorted.

A listing shows groups of texts.  `IsListingOf` says what it means that a
listing shows the classes of a relation, in order and with nothing twice.
There is at most one such listing (`IsListingOf.unique`), so a function with
this property cannot depend on anything but the relation.
-/

namespace ManifestAtlas

/-! ## Components of positions -/

/-- Two positions reach each other, along any number of edges. -/
def Joined (edges : List (Nat × Nat)) (i j : Nat) : Prop :=
  Relation.ReflTransGen (fun a b => (a, b) ∈ edges) i j ∧
    Relation.ReflTransGen (fun a b => (a, b) ∈ edges) j i

/-- Lists of positions that are the strongly connected components of the first `n` positions: every
position stands in them once, and together with exactly the ones that it is joined with. -/
structure AreStrongComponents (edges : List (Nat × Nat)) (n : Nat) (components : List (List Nat)) :
    Prop where
  nodup : components.flatten.Nodup
  mem_flatten_iff : ∀ i, i ∈ components.flatten ↔ i < n
  mem_iff : ∀ component ∈ components, ∀ i ∈ component, ∀ j,
    j ∈ component ↔ j < n ∧ Joined edges i j

section

variable {edges : List (Nat × Nat)} {n i j k : Nat}

theorem Joined.symm (h : Joined edges i j) : Joined edges j i :=
  ⟨h.2, h.1⟩

theorem Joined.trans (h : Joined edges i j) (h' : Joined edges j k) : Joined edges i k :=
  ⟨h.1.trans h'.1, h'.2.trans h.2⟩

/-- Joined positions are one, or reach each other along one or more edges. -/
theorem joined_iff : Joined edges i j ↔ i = j ∨ Walk edges i j ∧ Walk edges j i := by
  rw [Joined, Relation.reflTransGen_iff_eq_or_transGen, Relation.reflTransGen_iff_eq_or_transGen]
  constructor
  · rintro ⟨heq | hij, heq' | hji⟩
    · exact .inl heq.symm
    · exact .inl heq.symm
    · exact .inl heq'
    · exact .inr ⟨hij, hji⟩
  · rintro (rfl | ⟨hij, hji⟩)
    · exact ⟨.inl rfl, .inl rfl⟩
    · exact ⟨.inr hij, .inr hji⟩

/-- The positions before `n` that are joined with a position, in order. -/
def componentOf (edges : List (Nat × Nat)) (n i : Nat) : List Nat :=
  (List.range n).filter fun j =>
    i == j || (reachable edges i).contains j && (reachable edges j).contains i

theorem mem_componentOf : j ∈ componentOf edges n i ↔ j < n ∧ Joined edges i j := by
  simp [componentOf, joined_iff, mem_reachable_iff]

theorem mem_strongComponents {component : List Nat} :
    component ∈ strongComponents edges n ↔ ∃ i < n, component = componentOf edges n i := by
  have hreach : ∀ i < n,
      (((Array.range n).map (reachable edges)).getD i []) = reachable edges i := by
    intro i hi
    simp [Array.getD, hi]
  have hcomponent : ∀ i < n, ((List.range n).filter fun j => i == j ||
      (((Array.range n).map (reachable edges)).getD i []).contains j &&
        (((Array.range n).map (reachable edges)).getD j []).contains i) =
      componentOf edges n i := by
    intro i hi
    refine List.filter_congr fun j hj => ?_
    rw [hreach i hi, hreach j (List.mem_range.1 hj)]
  rw [strongComponents, mem_distinct, List.mem_map]
  constructor
  · rintro ⟨i, hi, rfl⟩
    exact ⟨i, List.mem_range.1 hi, hcomponent i (List.mem_range.1 hi)⟩
  · rintro ⟨i, hi, rfl⟩
    exact ⟨i, List.mem_range.2 hi, hcomponent i hi⟩

/-- Two positions of one component have the same component. -/
theorem componentOf_eq (h : Joined edges i j) : componentOf edges n i = componentOf edges n j := by
  refine List.filter_congr fun k hk => ?_
  have hjoined : ∀ l, (l == k || (reachable edges l).contains k && (reachable edges k).contains l) =
      true ↔ Joined edges l k := by
    simp [joined_iff, mem_reachable_iff]
  rw [Bool.eq_iff_iff, hjoined, hjoined]
  exact ⟨h.symm.trans, h.trans⟩

/-- The components that are computed are the strongly connected ones. -/
theorem areStrongComponents_strongComponents (edges : List (Nat × Nat)) (n : Nat) :
    AreStrongComponents edges n (strongComponents edges n) := by
  refine ⟨List.nodup_flatten.2 ⟨?_, ?_⟩, ?_, ?_⟩
  · intro component hcomponent
    obtain ⟨i, -, rfl⟩ := mem_strongComponents.1 hcomponent
    exact List.nodup_range.filter _
  · have hne : (strongComponents edges n).Pairwise (· ≠ ·) := nodup_distinct _
    refine hne.imp_of_mem fun hcomponent hother hne k hk hk' => hne ?_
    obtain ⟨i, -, rfl⟩ := mem_strongComponents.1 hcomponent
    obtain ⟨j, -, rfl⟩ := mem_strongComponents.1 hother
    exact componentOf_eq ((mem_componentOf.1 hk).2.trans (mem_componentOf.1 hk').2.symm)
  · intro i
    rw [List.mem_flatten]
    constructor
    · rintro ⟨component, hcomponent, hi⟩
      obtain ⟨j, -, rfl⟩ := mem_strongComponents.1 hcomponent
      exact (mem_componentOf.1 hi).1
    · intro hi
      exact ⟨_, mem_strongComponents.2 ⟨i, hi, rfl⟩, mem_componentOf.2 ⟨hi, .refl, .refl⟩⟩
  · intro component hcomponent i hi j
    obtain ⟨k, -, rfl⟩ := mem_strongComponents.1 hcomponent
    rw [mem_componentOf]
    have hki := (mem_componentOf.1 hi).2
    exact and_congr_right fun _ => ⟨hki.symm.trans, hki.trans⟩

end

/-! ## Cycles -/

/-- Positions that make up a cycle: all those that one of them reaches and that reach it, along one
or more edges. -/
structure IsCycleOf (edges : List (Nat × Nat)) (n : Nat) (component : List Nat) : Prop where
  nodup : component.Nodup
  ne_nil : component ≠ []
  mem_iff : ∀ i ∈ component, ∀ j, j ∈ component ↔ j < n ∧ Walk edges i j ∧ Walk edges j i

section

variable {graph : ModuleGraph} {n i : Nat} {components : List (List Nat)} {component : List Nat}

/-- A component is a cycle when any of its positions reaches itself along one or more edges. -/
theorem AreStrongComponents.isCyclic_iff (h : AreStrongComponents graph.edges n components)
    (hsource : ∀ e ∈ graph.edges, e.1 < n) (hcomponent : component ∈ components)
    (hi : i ∈ component) : graph.isCyclic component = true ↔ Walk graph.edges i i := by
  have hmem := h.mem_iff component hcomponent i hi
  have hnodup : component.Nodup := (List.nodup_flatten.1 h.nodup).1 component hcomponent
  have hback : ∀ j ∈ component, j ≠ i → Walk graph.edges i i := by
    intro j hj hne
    obtain ⟨hij, hji⟩ := (joined_iff.1 ((hmem j).1 hj).2).resolve_left hne.symm
    exact hij.trans hji
  rw [ModuleGraph.isCyclic, Bool.or_eq_true, decide_eq_true_iff, List.any_eq_true,
    ← distinct_of_nodup hnodup, one_lt_length_distinct, distinct_of_nodup hnodup]
  simp only [ModuleGraph.hasEdge, List.contains_iff_mem]
  constructor
  · rintro (⟨j, hj, k, hk, hne⟩ | ⟨j, hj, hedge⟩)
    · by_cases hji : j = i
      · exact hback k hk (hji ▸ hne.symm)
      · exact hback j hj hji
    · by_cases hji : j = i
      · exact .single (hji ▸ hedge)
      · exact hback j hj hji
  · intro hwalk
    -- the walk goes on from its first edge, and all the way within the component
    obtain ⟨j, hij, hji⟩ := Relation.TransGen.head'_iff.1 hwalk
    by_cases hne : j = i
    · exact .inr ⟨i, hi, hne ▸ hij⟩
    · have hwalk' : Walk graph.edges j i :=
        (Relation.reflTransGen_iff_eq_or_transGen.1 hji).resolve_left (Ne.symm hne)
      obtain ⟨k, hjk, -⟩ := Relation.TransGen.head'_iff.1 hwalk'
      exact .inl ⟨j, (hmem j).2 ⟨hsource _ hjk, .single hij, hji⟩, i, hi, hne⟩

/-- A component that counts as a cycle is one. -/
theorem AreStrongComponents.isCycleOf (h : AreStrongComponents graph.edges n components)
    (hsource : ∀ e ∈ graph.edges, e.1 < n) (hcomponent : component ∈ components)
    (hcyclic : graph.isCyclic component = true) : IsCycleOf graph.edges n component where
  nodup := (List.nodup_flatten.1 h.nodup).1 component hcomponent
  ne_nil := by
    rintro rfl
    cases hcyclic
  mem_iff i hi j := by
    rw [h.mem_iff component hcomponent i hi j, joined_iff]
    have hwalk := (h.isCyclic_iff hsource hcomponent hi).1 hcyclic
    refine and_congr_right fun _ => ⟨?_, .inr⟩
    rintro (rfl | hwalks)
    · exact ⟨hwalk, hwalk⟩
    · exact hwalks

/-- A position that reaches itself along one or more edges stands in a cycle. -/
theorem AreStrongComponents.exists_cyclic (h : AreStrongComponents graph.edges n components)
    (hsource : ∀ e ∈ graph.edges, e.1 < n) (hwalk : Walk graph.edges i i) :
    ∃ component ∈ components, graph.isCyclic component = true ∧ i ∈ component := by
  obtain ⟨j, hij, -⟩ := Relation.TransGen.head'_iff.1 hwalk
  obtain ⟨component, hcomponent, hi⟩ :=
    List.mem_flatten.1 ((h.mem_flatten_iff i).2 (hsource _ hij))
  exact ⟨component, hcomponent, (h.isCyclic_iff hsource hcomponent hi).2 hwalk, hi⟩

end

/-! ## Ascending order -/

theorem textLE_iff {a b : String} : textLE a b = true ↔ a ≤ b := by
  rw [textLE, Bool.not_eq_true', decide_eq_false_iff_not, not_lt]

theorem textsLE_iff {a b : List String} : textsLE a b = true ↔ a ≤ b := by
  rw [textsLE, Bool.not_eq_true', decide_eq_false_iff_not, not_lt]

/-- Sorting a list without repeats puts it in strictly ascending order. -/
theorem pairwise_lt_mergeSort {α : Type} [LinearOrder α] {le : α → α → Bool}
    (hle : ∀ {a b}, le a b = true ↔ a ≤ b) {xs : List α} (h : xs.Nodup) :
    (xs.mergeSort le).Pairwise (· < ·) := by
  have hsorted : (xs.mergeSort le).Pairwise fun a b => le a b = true := by
    apply List.pairwise_mergeSort
    · intro a b c
      simp only [hle]
      exact le_trans
    · intro a b
      rw [Bool.or_eq_true, hle, hle]
      exact le_total a b
  have hnodup : (xs.mergeSort le).Nodup := (List.mergeSort_perm xs le).nodup_iff.2 h
  refine (hsorted.and hnodup).imp ?_
  intro a b hboth
  obtain ⟨hab, hne⟩ := hboth
  exact lt_of_le_of_ne (hle.1 hab) hne

/-! ## Listings -/

/-- What stands nowhere twice stands in one group only. -/
theorem group_eq_of_nodup_flatten {α : Type} {groups : List (List α)} (h : groups.flatten.Nodup)
    {group other : List α} (hgroup : group ∈ groups) (hother : other ∈ groups) {a : α}
    (ha : a ∈ group) (ha' : a ∈ other) : group = other := by
  by_contra hne
  have hdisjoint := (List.nodup_flatten.1 h).2
  have hsymm : Std.Symm (List.Disjoint (α := α)) := ⟨fun _ _ h _ hb hc => h hc hb⟩
  exact hdisjoint.forall hgroup hother hne ha ha'

/-- A listing of the classes of a relation on texts: the texts of a class in ascending order, the
classes in ascending order, and no text twice. -/
structure IsListingOf (together : String → String → Prop) (groups : List (List String)) :
    Prop where
  nonempty : ∀ group ∈ groups, group ≠ []
  ascending : ∀ group ∈ groups, group.Pairwise (· < ·)
  groups_ascending : groups.Pairwise (· < ·)
  nodup : groups.flatten.Nodup
  together_iff : ∀ a b, (∃ group ∈ groups, a ∈ group ∧ b ∈ group) ↔ together a b

namespace IsListingOf

variable {together : String → String → Prop} {groups others : List (List String)}

private theorem subset_aux (h : IsListingOf together groups) (h' : IsListingOf together others) :
    groups ⊆ others := by
  intro group hgroup
  obtain ⟨a, ha⟩ := List.exists_mem_of_ne_nil _ (h.nonempty group hgroup)
  obtain ⟨other, hother, ha', _⟩ :=
    (h'.together_iff a a).2 ((h.together_iff a a).1 ⟨group, hgroup, ha, ha⟩)
  -- Both listings agree on what stands together with `a`, and each has `a` in one group only.
  have hsame : ∀ b, b ∈ group ↔ b ∈ other := by
    intro b
    constructor
    · intro hb
      obtain ⟨third, hthird, ha'', hb'⟩ :=
        (h'.together_iff a b).2 ((h.together_iff a b).1 ⟨group, hgroup, ha, hb⟩)
      rw [group_eq_of_nodup_flatten h'.nodup hother hthird ha' ha'']
      exact hb'
    · intro hb
      obtain ⟨third, hthird, ha'', hb'⟩ :=
        (h.together_iff a b).2 ((h'.together_iff a b).1 ⟨other, hother, ha', hb⟩)
      rw [group_eq_of_nodup_flatten h.nodup hgroup hthird ha ha'']
      exact hb'
  rw [(h.ascending group hgroup).eq_of_mem_iff (h'.ascending other hother) hsame]
  exact hother

/-- A relation has at most one listing. -/
theorem unique (h : IsListingOf together groups) (h' : IsListingOf together others) :
    groups = others :=
  List.Subset.antisymm_of_pairwise h.groups_ascending h'.groups_ascending
    (subset_aux h h') (subset_aux h' h)

end IsListingOf

end ManifestAtlas
