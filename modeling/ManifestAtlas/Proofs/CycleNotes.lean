import ManifestAtlas.Proofs.DependencyCycles
import ManifestAtlas.Proofs.ReportParts

/-!
# What the notes about cycles say

A note about a dependency cycle lists the identifiers of a component of the
dependency graph in ascending order, with arrows between them.  An arrow reads
like a dependency, but the order of the identifiers is not that of the
dependencies.  What holds of every arrow is that a chain of dependencies leads
from its left side to its right side, and that the chain stays within the
identifiers of the note (`reaches_within_cycle`).  In notes with one or two
identifiers the chain is a single dependency (`dependsOn_of_arrow`).

`triangleManifest` has a note in which no arrow is a dependency.
-/

namespace ManifestAtlas

open ModuleGraph (build)

/-- The arrows that a chain of identifiers shows: from each one to the next, and from the last one
back to the first. -/
def arrowsOf (ids : List String) : List (String × String) :=
  ids.zip (ids.rotate 1)

/-- A dependency between two identifiers of a list. -/
def Manifest.DependsWithin (manifest : Manifest) (ids : List String) (a b : String) : Prop :=
  a ∈ ids ∧ b ∈ ids ∧ manifest.DependsOn a b

/-! ## The notes of a report -/

theorem dependencyCycle_mem_lint_iff {manifest : Manifest} {ids : List String} :
    .dependencyCycle ids ∈ (lint manifest).findings ↔ ids ∈ (build manifest).cycles := by
  rw [(splitsInto_manifestParts manifest).mem_iff (i := 4) rfl (List.mem_singleton_self _)]
  exact List.mem_map_of_injective fun _ _ h => Finding.dependencyCycle.inj h

/-- A finding whose message starts like a note about a cycle is one. -/
theorem exists_of_cycle_prefix {f : Finding}
    (h : "dependency cycle: ".toList <+: f.message.toList) : ∃ ids, f = .dependencyCycle ids := by
  have hcheck : f.check = .dependencyCycle := Finding.check_eq_of_opening_prefix h
  cases f with
  | dependencyCycle ids => exact ⟨ids, rfl⟩
  | _ => cases hcheck

/-! ## Chains within a cycle -/

theorem mem_of_mem_arrowsOf {ids : List String} {arrow : String × String}
    (h : arrow ∈ arrowsOf ids) : arrow.1 ∈ ids ∧ arrow.2 ∈ ids := by
  obtain ⟨hsource, htarget⟩ := List.of_mem_zip (a := arrow.1) (b := arrow.2) h
  exact ⟨hsource, List.mem_rotate.1 htarget⟩

section

variable {manifest : Manifest} {cycle : List String} {a b : String}

theorem reaches_of_mem_cycle (hcycle : cycle ∈ (build manifest).cycles) (ha : a ∈ cycle)
    (hb : b ∈ cycle) : Relation.TransGen manifest.DependsOn a b :=
  firstReaches_iff.1 (exists_cycle_iff.1 ⟨cycle, hcycle, ha, hb⟩).1

/-- A cycle lists everything that lies between its identifiers. -/
theorem mem_cycle_of_reaches (hcycle : cycle ∈ (build manifest).cycles) (ha : a ∈ cycle)
    (hab : Relation.TransGen manifest.DependsOn a b)
    (hba : Relation.TransGen manifest.DependsOn b a) : b ∈ cycle := by
  obtain ⟨other, hother, ha', hb⟩ :=
    exists_cycle_iff.2 ⟨firstReaches_iff.2 hab, firstReaches_iff.2 hba⟩
  have hnodup := (isListingOf_cycles manifest).nodup
  rw [group_eq_of_nodup_flatten hnodup hcycle hother ha ha']
  exact hb

/-- A chain of dependencies between two identifiers of a cycle does not leave the cycle. -/
theorem reaches_within_cycle (hcycle : cycle ∈ (build manifest).cycles) (ha : a ∈ cycle)
    (hb : b ∈ cycle) : Relation.TransGen (manifest.DependsWithin cycle) a b := by
  have hchain := reaches_of_mem_cycle hcycle ha hb
  -- From the front: what comes behind `a` on the chain reaches `b`, and so `a` again.
  induction hchain using Relation.TransGen.head_induction_on with
  | single hab => exact .single ⟨ha, hb, hab⟩
  | @head a c hac hcb ih =>
    have hc : c ∈ cycle :=
      mem_cycle_of_reaches hcycle ha (.single hac) (hcb.trans (reaches_of_mem_cycle hcycle hb ha))
    exact .head ⟨ha, hc, hac⟩ (ih hc)

/-- A chain that leads away from an identifier has a step away from it. -/
theorem exists_step_away {r : String → String → Prop} (h : Relation.TransGen r a b) (hne : a ≠ b) :
    ∃ c, c ≠ a ∧ r a c := by
  induction h using Relation.TransGen.head_induction_on with
  | single hab => exact ⟨b, hne.symm, hab⟩
  | @head a c hac hcb ih =>
    by_cases hca : c = a
    · subst hca
      exact ih hne
    · exact ⟨c, hca, hac⟩

/-- In a note with at most two identifiers, every arrow is a dependency. -/
theorem dependsOn_of_arrow (hcycle : cycle ∈ (build manifest).cycles) (hlen : cycle.length ≤ 2)
    {arrow : String × String} (harrow : arrow ∈ arrowsOf cycle) :
    manifest.DependsOn arrow.1 arrow.2 := by
  have hchain := reaches_within_cycle hcycle (mem_of_mem_arrowsOf harrow).1
    (mem_of_mem_arrowsOf harrow).2
  -- With one or two members there is only one place that a step out of a member can lead to.
  match cycle, hlen with
  | [], _ => cases harrow
  | [x], _ =>
    obtain rfl : arrow = (x, x) := by simpa [arrowsOf] using harrow
    obtain ⟨c, ⟨_, hc, hdepends⟩, _⟩ := Relation.TransGen.head'_iff.1 hchain
    rw [List.mem_singleton.1 hc] at hdepends
    exact hdepends
  | [x, y], _ =>
    have hxy : x ≠ y := by
      have hascending := (isListingOf_cycles manifest).ascending _ hcycle
      exact (List.rel_of_pairwise_cons hascending (List.mem_singleton_self y)).ne
    have harrows : arrow = (x, y) ∨ arrow = (y, x) := by
      simpa [arrowsOf, List.rotate] using harrow
    rcases harrows with rfl | rfl
    · obtain ⟨c, hne, _, hc, hdepends⟩ := exists_step_away hchain hxy
      rcases List.mem_pair.1 hc with rfl | rfl
      · exact absurd rfl hne
      · exact hdepends
    · obtain ⟨c, hne, _, hc, hdepends⟩ := exists_step_away hchain hxy.symm
      rcases List.mem_pair.1 hc with rfl | rfl
      · exact hdepends
      · exact absurd rfl hne

end

/-- Identifiers that stand for a cycle of dependencies: a component of the dependencies, each
identifier once and in ascending order.  An arrow from one to the next is a chain of dependencies
within the component, and with at most two identifiers a single dependency. -/
structure Manifest.IsCycle (manifest : Manifest) (ids : List String) : Prop where
  nonempty : ids ≠ []
  ascending : ids.Pairwise (· < ·)
  component : ∀ a ∈ ids, ∀ b, b ∈ ids ↔
    Relation.TransGen manifest.DependsOn a b ∧ Relation.TransGen manifest.DependsOn b a
  arrows : ∀ arrow ∈ arrowsOf ids, Relation.TransGen (manifest.DependsWithin ids) arrow.1 arrow.2
  short : ids.length ≤ 2 → ∀ arrow ∈ arrowsOf ids, manifest.DependsOn arrow.1 arrow.2

theorem isCycle_of_mem_cycles {manifest : Manifest} {ids : List String}
    (hcycle : ids ∈ (build manifest).cycles) : manifest.IsCycle ids where
  nonempty := (isListingOf_cycles manifest).nonempty ids hcycle
  ascending := (isListingOf_cycles manifest).ascending ids hcycle
  component a ha b := by
    constructor
    · exact fun hb => ⟨reaches_of_mem_cycle hcycle ha hb, reaches_of_mem_cycle hcycle hb ha⟩
    · exact fun h => mem_cycle_of_reaches hcycle ha h.1 h.2
  arrows _ harrow := reaches_within_cycle hcycle (mem_of_mem_arrowsOf harrow).1
    (mem_of_mem_arrowsOf harrow).2
  short hlen _ harrow := dependsOn_of_arrow hcycle hlen harrow

/-- Every finding whose message starts like a note about a cycle lists one. -/
theorem cycle_note_arrows_reach {manifest : Manifest} {f : Finding}
    (hf : f ∈ (lint manifest).findings)
    (hstart : "dependency cycle: ".toList <+: f.message.toList) :
    ∃ ids, f = .dependencyCycle ids ∧
      f.message = "dependency cycle: " ++ " -> ".intercalate ids ∧ manifest.IsCycle ids := by
  obtain ⟨ids, rfl⟩ := exists_of_cycle_prefix hstart
  exact ⟨ids, rfl, rfl, isCycle_of_mem_cycles (dependencyCycle_mem_lint_iff.1 hf)⟩

/-- Three modules that depend on each other in a circle, against the order of their identifiers. -/
def triangleManifest : Manifest where
  project := ⟨"Shop", none, none, none, none⟩
  modules := [bareModule "a" ["c"], bareModule "b" ["a"], bareModule "c" ["b"]]
  entities := []
  dataModels := []
  glossary := .empty
  changelog := []

theorem triangle_mem_cycles : ["a", "b", "c"] ∈ (build triangleManifest).cycles := by
  have hcycles : (build triangleManifest).cycles = [["a", "b", "c"]] := by cbv
  rw [hcycles]
  exact List.mem_singleton_self _

theorem triangleManifest_arrow_reaches :
    let note := Finding.dependencyCycle ["a", "b", "c"]
    note ∈ (lint triangleManifest).findings ∧
      "dependency cycle: ".toList <+: note.message.toList ∧
      Relation.TransGen (triangleManifest.DependsWithin ["a", "b", "c"]) "a" "b" := by
  intro note
  have hnote : note ∈ (lint triangleManifest).findings :=
    dependencyCycle_mem_lint_iff.2 triangle_mem_cycles
  have hstart : "dependency cycle: ".toList <+: note.message.toList := by decide
  obtain ⟨ids, heq, -, hcycle⟩ := cycle_note_arrows_reach hnote hstart
  obtain rfl : ["a", "b", "c"] = ids := Finding.dependencyCycle.inj heq
  exact ⟨hnote, hstart, hcycle.arrows ("a", "b") (by decide)⟩

/-- The note about the circle shows an arrow from `a` to `b`, but `a` depends on `c` alone. -/
theorem triangleManifest_note_misleads :
    .dependencyCycle ["a", "b", "c"] ∈ (lint triangleManifest).findings ∧
      (Finding.dependencyCycle ["a", "b", "c"]).message = "dependency cycle: a -> b -> c" ∧
      ("a", "b") ∈ arrowsOf ["a", "b", "c"] ∧ ¬ triangleManifest.DependsOn "a" "b" := by
  refine ⟨dependencyCycle_mem_lint_iff.2 triangle_mem_cycles, rfl, by decide, ?_⟩
  rintro ⟨⟨module, hmodule, hdepends, _⟩, _⟩
  have hfirst : triangleManifest.module? "a" = some (bareModule "a" ["c"]) := rfl
  rw [hfirst] at hmodule
  cases hmodule
  exact absurd hdepends (by decide)

end ManifestAtlas
