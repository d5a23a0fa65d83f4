import Mathlib
import ManifestAtlas.Proofs.FindingTexts
import ManifestAtlas.Proofs.Occurrences

/-!
# Passes that remember the texts they have seen

Two passes go over a list of texts once and keep sets of what they have seen.
`VisiblePass` skips blank texts and keeps every other text that it has not seen
before.  `DuplicatePass` checks identifiers: it has a second set for those that
it has reported, which it asks only about an identifier that comes again.

Each pass has an invariant that says what its sets and its output are after a
part of the list (`VisiblePass.After`, `DuplicatePass.After`).  One step carries
it over to one more text (`after_look`, `after_visit`), and `foldl_after` from
there to a whole list.  So the first pass gives `distinctVisible`, and the
second adds the reports of `duplicateFindings`.

Main statement: the first list is that of the first occurrences, and the second
names the second occurrences (`passes_tell_occurrences_apart`).
-/

namespace ManifestAtlas

open Std (HashSet)

/-- What a step carries over to one more element holds after a whole list. -/
theorem foldl_after {σ α : Type} {step : σ → α → σ} {after : List α → σ → Prop}
    (hstep : ∀ {xs : List α} {s : σ} (x : α), after xs s → after (xs ++ [x]) (step s x)) {start : σ}
    (h : after [] start) (xs : List α) : after xs (xs.foldl step start) := by
  induction xs using List.reverseRecOn with
  | nil => exact h
  | append_singleton xs x ih =>
    rw [List.foldl_concat]
    exact hstep x ih

/-- Putting a text into a set tells whether it was there. -/
theorem containsThenInsert_eq (seen : HashSet String) (text : String) :
    seen.containsThenInsert text = (seen.contains text, seen.insert text) :=
  Prod.ext HashSet.containsThenInsert_fst HashSet.containsThenInsert_snd

/-! ## Texts that are not blank -/

/-- A pass that keeps the texts that are neither blank nor seen before. -/
structure VisiblePass where
  seen : HashSet String
  kept : List String

namespace VisiblePass

/-- The pass before the first text. -/
def start : VisiblePass :=
  ⟨∅, []⟩

/-- Looks at a text.  A blank one is skipped before the set is asked. -/
def look (pass : VisiblePass) (text : String) : VisiblePass :=
  if isBlankText text then pass
  else
    let (known, seen) := pass.seen.containsThenInsert text
    ⟨seen, if known then pass.kept else pass.kept ++ [text]⟩

/-- The pass over a list. -/
def run (texts : List String) : VisiblePass :=
  texts.foldl look start

/-- The pass after some texts: it has seen those that are not blank, and keeps their first
occurrences. -/
structure After (texts : List String) (pass : VisiblePass) : Prop where
  seen : ∀ text, text ∈ pass.seen ↔ text ∈ texts.filter fun t => !isBlankText t
  kept : pass.kept = distinctVisible texts

theorem after_look {texts : List String} {pass : VisiblePass} (text : String)
    (h : After texts pass) : After (texts ++ [text]) (pass.look text) := by
  by_cases hblank : isBlankText text = true
  · have hfilter : (texts ++ [text]).filter (fun t => !isBlankText t) =
        texts.filter fun t => !isBlankText t := by
      simp [hblank]
    rw [look, if_pos hblank]
    exact ⟨hfilter ▸ h.seen, by rw [distinctVisible, hfilter]; exact h.kept⟩
  · have hfilter : (texts ++ [text]).filter (fun t => !isBlankText t) =
        texts.filter (fun t => !isBlankText t) ++ [text] := by
      simp [hblank]
    rw [look, if_neg hblank, containsThenInsert_eq]
    constructor
    · intro other
      rw [hfilter, List.mem_append, List.mem_singleton, ← h.seen other, HashSet.mem_insert,
        beq_iff_eq, or_comm, @eq_comm _ text]
    · rw [distinctVisible, hfilter, distinct_concat, ← distinctVisible, ← h.kept]
      exact if_congr (h.seen text) rfl rfl

theorem after_start : After [] start where
  seen := by simp [start]
  kept := rfl

theorem after_run (texts : List String) : After texts (run texts) :=
  foldl_after (fun text => after_look text) after_start texts

end VisiblePass

/-! ## Identifiers that come again -/

section

variable {ids : List String} {set : HashSet String} {n : Nat} {id : String}

/-- A set of the identifiers that occur more than `n` times in a list. -/
def HasMoreThan (n : Nat) (ids : List String) (set : HashSet String) : Prop :=
  ∀ id, id ∈ set ↔ n < ids.count id

theorem HasMoreThan.contains_iff (h : HasMoreThan n ids set) :
    set.contains id = true ↔ n < ids.count id := by
  rw [← HashSet.mem_iff_contains, h id]

theorem count_concat (ids : List String) (id other : String) :
    (ids ++ [id]).count other = ids.count other + if id = other then 1 else 0 := by
  simp [List.count_append, List.count_singleton]

/-- An identifier that has come `n` times is put in when it comes again. -/
theorem HasMoreThan.insert (h : HasMoreThan n ids set) (hid : n ≤ ids.count id) :
    HasMoreThan n (ids ++ [id]) (set.insert id) := by
  intro other
  rw [HashSet.mem_insert, h other, beq_iff_eq, count_concat]
  by_cases heq : id = other
  · subst heq
    simp only [true_or, if_true, true_iff]
    omega
  · rw [if_neg heq, Nat.add_zero]
    exact or_iff_right heq

/-- Until then the set stays as it is. -/
theorem HasMoreThan.concat (h : HasMoreThan n ids set) (hid : ids.count id < n) :
    HasMoreThan n (ids ++ [id]) set := by
  intro other
  rw [h other, count_concat]
  by_cases heq : id = other
  · subst heq
    rw [if_pos rfl]
    omega
  · rw [if_neg heq, Nat.add_zero]

end

/-- An identifier adds a finding when it comes for the second time. -/
theorem duplicateFindings_concat {kind : IdKind} {scope : Scope} (ids : List String) (id : String) :
    duplicateFindings kind scope (ids ++ [id]) = duplicateFindings kind scope ids ++
      if ids.count id = 1 then [.duplicateId kind scope id] else [] := by
  rw [duplicateFindings, repeated_concat, List.map_append]
  split
  · rfl
  · rfl

/-- A check of identifiers that is still running: the identifiers so far, those that it has
reported, and the report. -/
structure DuplicatePass where
  seen : HashSet String
  reported : HashSet String
  diagnostics : List Diagnostic

namespace DuplicatePass

/-- The check before the first identifier, with the report so far. -/
def start (earlier : List Diagnostic) : DuplicatePass :=
  ⟨∅, ∅, earlier⟩

/-- Looks at an identifier.  The second set is asked, and grows, only if the first one has the
identifier. -/
def visit (kind : IdKind) (scope : Scope) (pass : DuplicatePass) (id : String) : DuplicatePass :=
  let (known, seen) := pass.seen.containsThenInsert id
  if known then
    let (told, reported) := pass.reported.containsThenInsert id
    ⟨seen, reported, if told then pass.diagnostics
      else pass.diagnostics ++ [(Finding.duplicateId kind scope id).diagnostic]⟩
  else { pass with seen := seen }

/-- The check of a list. -/
def run (kind : IdKind) (scope : Scope) (earlier : List Diagnostic) (ids : List String) :
    DuplicatePass :=
  ids.foldl (visit kind scope) (start earlier)

/-- The check after some identifiers: it has reported those that came more than once, and has added
a warning for each to the report. -/
structure After (kind : IdKind) (scope : Scope) (earlier : List Diagnostic) (ids : List String)
    (pass : DuplicatePass) : Prop where
  seen : HasMoreThan 0 ids pass.seen
  reported : HasMoreThan 1 ids pass.reported
  diagnostics : pass.diagnostics =
    earlier ++ (duplicateFindings kind scope ids).map Finding.diagnostic

section

variable {kind : IdKind} {scope : Scope} {earlier : List Diagnostic} {ids : List String}

theorem visit_eq (pass : DuplicatePass) (id : String) :
    pass.visit kind scope id =
      if pass.seen.contains id then
        ⟨pass.seen.insert id, pass.reported.insert id,
          if pass.reported.contains id then pass.diagnostics
          else pass.diagnostics ++ [(Finding.duplicateId kind scope id).diagnostic]⟩
      else ⟨pass.seen.insert id, pass.reported, pass.diagnostics⟩ := by
  rw [visit, containsThenInsert_eq, containsThenInsert_eq]

theorem after_visit {pass : DuplicatePass} (id : String) (h : After kind scope earlier ids pass) :
    After kind scope earlier (ids ++ [id]) (pass.visit kind scope id) := by
  have hseen := h.seen.insert (Nat.zero_le (ids.count id))
  rw [visit_eq]
  by_cases hknown : 0 < ids.count id
  · rw [if_pos (h.seen.contains_iff.2 hknown)]
    refine ⟨hseen, h.reported.insert hknown, ?_⟩
    rw [duplicateFindings_concat, h.diagnostics]
    -- It comes for the second time just if it is not in the second set.
    by_cases htold : 1 < ids.count id
    · have hmore : ids.count id ≠ 1 := by omega
      rw [if_pos (h.reported.contains_iff.2 htold), if_neg hmore, List.append_nil]
    · have hone : ids.count id = 1 := by omega
      rw [if_neg (mt h.reported.contains_iff.1 htold), if_pos hone, List.map_append,
        List.append_assoc]
      rfl
  · have hnone : ids.count id ≠ 1 := by omega
    rw [if_neg (mt h.seen.contains_iff.1 hknown)]
    refine ⟨hseen, h.reported.concat (by omega), ?_⟩
    rw [duplicateFindings_concat, if_neg hnone, List.append_nil]
    exact h.diagnostics

theorem after_start (earlier : List Diagnostic) : After kind scope earlier [] (start earlier) where
  seen := by simp [HasMoreThan, start]
  reported := by simp [HasMoreThan, start]
  diagnostics := by simp [start, duplicateFindings, repeated]

theorem after_run (earlier : List Diagnostic) (ids : List String) :
    After kind scope earlier ids (run kind scope earlier ids) :=
  foldl_after (fun id => after_visit id) (after_start earlier) ids

end

end DuplicatePass

/-! ## Reports of repeated identifiers -/

/-- Different identifiers are reported differently. -/
theorem duplicateId_diagnostic_injective (kind : IdKind) (scope : Scope) :
    Function.Injective fun id => (Finding.duplicateId kind scope id).diagnostic := by
  intro id other h
  cases Finding.diagnostic_eq_iff.1 h with
  | duplicateId _ h => exact String.append_left_inj _ |>.1 h

/-- Each identifier that comes again is reported once. -/
theorem count_duplicateFindings (kind : IdKind) (scope : Scope) (ids : List String) (id : String) :
    ((duplicateFindings kind scope ids).map Finding.diagnostic).count
      (Finding.duplicateId kind scope id).diagnostic = if 2 ≤ ids.count id then 1 else 0 := by
  have hmap : (duplicateFindings kind scope ids).map Finding.diagnostic =
      (repeated [] ids).map fun id => (Finding.duplicateId kind scope id).diagnostic := by
    rw [duplicateFindings, List.map_map]
    rfl
  rw [hmap, List.count_map_of_injective _ _ (duplicateId_diagnostic_injective kind scope),
    (nodup_repeated [] ids).count]
  exact if_congr ((secondOccurrences_repeated ids).mem_iff id) rfl rfl

/-- One pass keeps the first occurrences of the texts that are not blank, and the other reports the
second occurrences. -/
theorem passes_tell_occurrences_apart :
    (∀ texts : List String,
      (VisiblePass.run texts).kept = distinctVisible texts ∧
      (distinctVisible texts).Sublist texts ∧
      (distinctVisible texts).Nodup ∧
      FirstOccurrences texts (fun text => isBlankText text = false) (distinctVisible texts) ∧
      distinctVisible (distinctVisible texts) = distinctVisible texts) ∧
    (∀ xs ys : List String,
      distinctVisible (xs ++ ys) = distinctVisible xs ++ (distinctVisible ys).filter (· ∉ xs)) ∧
    ∀ (kind : IdKind) (scope : Scope) (earlier : List Diagnostic) (ids : List String),
      (DuplicatePass.run kind scope earlier ids).diagnostics =
        earlier ++ (duplicateFindings kind scope ids).map Finding.diagnostic ∧
      (∃ repeats, SecondOccurrences ids repeats ∧
        duplicateFindings kind scope ids = repeats.map (.duplicateId kind scope)) ∧
      ∀ id, (Finding.duplicateId kind scope id).severity = .warning ∧
        ((duplicateFindings kind scope ids).map Finding.diagnostic).count
          (Finding.duplicateId kind scope id).diagnostic = if 2 ≤ ids.count id then 1 else 0 := by
  refine ⟨fun texts => ⟨(VisiblePass.after_run texts).kept, distinctVisible_sublist texts,
    nodup_distinct _, firstOccurrences_distinctVisible texts,
    distinctVisible_distinctVisible texts⟩, distinctVisible_append, ?_⟩
  intro kind scope earlier ids
  exact ⟨(DuplicatePass.after_run earlier ids).diagnostics,
    ⟨repeated [] ids, secondOccurrences_repeated ids, rfl⟩,
    fun id => ⟨rfl, count_duplicateFindings kind scope ids id⟩⟩

example : distinctVisible ["b", "", "a", "b", "  ", "c", "a"] = ["b", "a", "c"] := by
  cbv

end ManifestAtlas
