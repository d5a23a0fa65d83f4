import ManifestAtlas.Files.Path
import Mathlib.Data.List.Basic

/-!
# The order of paths

Paths are compared component by component.  Components are in a strict order, in
which any two of them are equal or one is before the other; the order of paths
is the lexicographic one on top of it (`componentsLE_cons`).

Sorting by it puts every path before the next one (`pairwise_precedes_sorted`),
as long as no two of them have the same components, and a list of that kind is
determined by its elements (`eq_of_pairwise_precedes`).
-/

namespace ManifestAtlas

/-! ## Components -/

namespace Component

variable {a b c : Component}

theorem before_iff : a.before b = true ↔
    a.rank < b.rank ∨ ∃ s t, a = .name s ∧ b = .name t ∧ s < t := by
  cases a <;> cases b <;> simp [before, rank]

theorem before_irrefl (a : Component) : a.before a = false := by
  rw [← Bool.not_eq_true, before_iff]
  rintro (hlt | ⟨s, t, rfl, heq, hlt⟩)
  · exact Nat.lt_irrefl _ hlt
  · rw [name.inj heq] at hlt
    exact String.lt_irrefl t hlt

theorem before_trans (hab : a.before b = true) (hbc : b.before c = true) : a.before c = true := by
  rw [before_iff] at hab hbc ⊢
  rcases hab with hab | ⟨s, t, rfl, rfl, hst⟩
  · rcases hbc with hbc | ⟨t, u, rfl, rfl, -⟩
    · exact .inl (Nat.lt_trans hab hbc)
    · exact .inl hab
  · rcases hbc with hbc | ⟨t', u, heq, rfl, htu⟩
    · exact .inl hbc
    · rw [← name.inj heq] at htu
      exact .inr ⟨s, u, rfl, rfl, String.lt_trans hst htu⟩

theorem before_trichotomous (a b : Component) :
    a.before b = true ∨ a = b ∨ b.before a = true := by
  cases a with
  | name s =>
    cases b with
    | name t =>
      simpa [before] using Std.lt_trichotomy s t
    | _ => exact .inr (.inr rfl)
  | _ =>
    cases b with
    | name t => exact .inl rfl
    | _ => decide

theorem before_asymm (h : a.before b = true) : b.before a = false := by
  by_contra hback
  have hself := before_trans h (by simpa using hback)
  rw [before_irrefl] at hself
  cases hself

end Component

/-! ## Lists of components -/

section

variable {a b : Component} {as bs cs : List Component}

theorem componentsLE_cons :
    componentsLE (a :: as) (b :: bs) = true ↔
      a.before b = true ∨ a = b ∧ componentsLE as bs = true := by
  rw [componentsLE]
  rcases Component.before_trichotomous a b with h | rfl | h
  · simp [h]
  · simp [Component.before_irrefl]
  · have hne : a ≠ b := by
      rintro rfl
      simp [Component.before_irrefl] at h
    simp [h, Component.before_asymm h, hne]

theorem componentsLE_total (as bs : List Component) :
    componentsLE as bs = true ∨ componentsLE bs as = true := by
  induction as generalizing bs with
  | nil => exact .inl (by rw [componentsLE])
  | cons a as ih =>
    cases bs with
    | nil => exact .inr (by rw [componentsLE])
    | cons b bs =>
      rw [componentsLE_cons, componentsLE_cons]
      rcases Component.before_trichotomous a b with h | rfl | h
      · exact .inl (.inl h)
      · exact (ih bs).imp (fun h => .inr ⟨rfl, h⟩) fun h => .inr ⟨rfl, h⟩
      · exact .inr (.inl h)

theorem componentsLE_trans (hab : componentsLE as bs = true) (hbc : componentsLE bs cs = true) :
    componentsLE as cs = true := by
  induction as generalizing bs cs with
  | nil => rw [componentsLE]
  | cons a as ih =>
    match bs, cs, hab, hbc with
    | b :: bs, c :: cs, hab, hbc =>
      rw [componentsLE_cons] at hab hbc ⊢
      rcases hab with hab | ⟨rfl, hab⟩
      · rcases hbc with hbc | ⟨rfl, -⟩
        · exact .inl (Component.before_trans hab hbc)
        · exact .inl hab
      · rcases hbc with hbc | ⟨rfl, hbc⟩
        · exact .inl hbc
        · exact .inr ⟨rfl, ih hab hbc⟩

/-- Of different lists, the one that comes no later comes before the other one. -/
theorem lex_of_componentsLE (h : componentsLE as bs = true) (hne : as ≠ bs) :
    List.Lex (fun a b => a.before b = true) as bs := by
  induction as generalizing bs with
  | nil =>
    cases bs with
    | nil => exact absurd rfl hne
    | cons b bs => exact .nil
  | cons a as ih =>
    cases bs with
    | nil => simp [componentsLE] at h
    | cons b bs =>
      rcases componentsLE_cons.1 h with hbefore | ⟨rfl, hle⟩
      · exact .rel hbefore
      · exact .cons (ih hle fun heq => hne (heq ▸ rfl))

theorem lex_asymm (h : List.Lex (fun a b => a.before b = true) as bs) :
    ¬ List.Lex (fun a b => a.before b = true) bs as := by
  induction h with
  | nil => exact fun hback => nomatch hback
  | rel hab =>
    intro hback
    cases hback with
    | rel hba => simp [Component.before_asymm hab] at hba
    | cons _ => simp [Component.before_irrefl] at hab
  | cons _ ih =>
    intro hback
    cases hback with
    | rel haa => simp [Component.before_irrefl] at haa
    | cons hback => exact ih hback

end

/-! ## Paths -/

namespace Path

/-- A path comes before another one, component by component. -/
def Precedes (p q : Path) : Prop :=
  List.Lex (fun a b => a.before b = true) p.components q.components

instance (p q : Path) : Decidable (p.Precedes q) :=
  inferInstanceAs (Decidable (List.Lex _ _ _))

/-- Sorted paths come one before the other when no two of them have the same components. -/
theorem pairwise_precedes_sorted {paths : List Path} (h : (paths.map components).Nodup) :
    (paths.mergeSort notAfter).Pairwise Precedes := by
  have htotal : ∀ p q : Path, (p.notAfter q || q.notAfter p) = true := fun p q => by
    simpa [notAfter] using componentsLE_total p.components q.components
  have htrans : ∀ p q r : Path, p.notAfter q = true → q.notAfter r = true → p.notAfter r = true :=
    fun _ _ _ => componentsLE_trans
  have hsorted := List.pairwise_mergeSort htrans htotal paths
  have hdistinct : (paths.mergeSort notAfter).Pairwise fun p q => p.components ≠ q.components := by
    rw [← List.pairwise_map (f := components)]
    exact ((List.mergeSort_perm paths notAfter).map components).nodup_iff.2 h
  exact (hsorted.and hdistinct).imp fun h => lex_of_componentsLE h.1 h.2

/-- Paths that come one before the other are determined by which they are. -/
theorem eq_of_pairwise_precedes {paths others : List Path} (h : paths.Pairwise Precedes)
    (hothers : others.Pairwise Precedes) (hmem : ∀ p, p ∈ paths ↔ p ∈ others) :
    paths = others := by
  have hnodup (list : List Path) (hlist : list.Pairwise Precedes) : list.Nodup := by
    refine hlist.imp fun {p q} hpq heq => ?_
    subst heq
    exact lex_asymm hpq hpq
  refine List.Perm.eq_of_pairwise (fun p q _ _ hpq hqp => absurd hqp (lex_asymm hpq)) h hothers ?_
  exact (List.perm_ext_iff_of_nodup (hnodup _ h) (hnodup _ hothers)).2 hmem

end Path

end ManifestAtlas
