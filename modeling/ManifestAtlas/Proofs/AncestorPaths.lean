import Mathlib.Data.List.Range
import ManifestAtlas.Proofs.EntryPaths
import ManifestAtlas.Proofs.PlainPaths

/-!
# The paths above a path

Each step up drops the last component of an absolute path (`parent?_cases`), so
that as many steps as it has segments are enough to come to the root.  The paths
on the way are absolute, and their components are all beginnings of those of the
path (`components_ancestors`).
-/

namespace ManifestAtlas

theorem notMem_of_mem_splitSlashes {cs : List Char} : ∀ s ∈ splitSlashes cs, '/' ∉ s := by
  induction cs with
  | nil => simp [splitSlashes]
  | cons c rest ih =>
    rw [splitSlashes]
    split
    · simpa using ih
    · rename_i hc
      obtain ⟨first, more, hsplit⟩ := List.exists_cons_of_ne_nil (Path.splitSlashes_ne_nil rest)
      rw [hsplit] at ih ⊢
      obtain ⟨hfirst, hmore⟩ := List.forall_mem_cons.1 ih
      refine List.forall_mem_cons.2 ⟨?_, hmore⟩
      simpa [Ne.symm hc] using hfirst

namespace Path

variable {p : Path}

theorem notMem_of_mem_segments : ∀ s ∈ p.segments, '/' ∉ s.toList := by
  intro s hs
  obtain ⟨cs, hcs, rfl⟩ := List.mem_map.1 hs
  simpa using notMem_of_mem_splitSlashes cs hcs

theorem isAbsolute_ofSegments (segments : List String) :
    (ofSegments true segments).isAbsolute = true := by
  simp [ofSegments, isAbsolute]

/-- The components of a path below the root are those of the segments it is made of. -/
theorem components_ofSegments {segments : List String} (h : ∀ s ∈ segments, '/' ∉ s.toList) :
    (ofSegments true segments).components = .root :: named segments := by
  rw [components_of_isAbsolute (isAbsolute_ofSegments segments), segments_eq, body,
    isAbsolute_ofSegments]
  cases segments with
  | nil => decide
  | cons s rest =>
    have hchars : ∀ cs ∈ s.toList :: rest.map String.toList, '/' ∉ cs := by
      rw [← List.map_cons]
      intro cs hcs
      obtain ⟨t, ht, rfl⟩ := List.mem_map.1 hcs
      exact h t ht
    have hsplit := splitSlashes_intercalate hchars
    simp [ofSegments, String.toList_intercalate, hsplit, Function.comp_def]

theorem trimmed_true (segments : List String) : trimmed true segments = trimIdle segments := by
  unfold trimmed
  split <;> rfl

theorem named_of_idle {segments : List String} (h : ∀ s ∈ segments, isIdle s = true) :
    named segments = [] := by
  simpa [named] using h

theorem trimIdle_append (segments : List String) :
    ∃ idle, (∀ s ∈ idle, isIdle s = true) ∧ segments = trimIdle segments ++ idle := by
  refine ⟨(segments.reverse.takeWhile isIdle).reverse, ?_, ?_⟩
  · simpa using fun s => List.mem_takeWhile_imp
  · rw [trimIdle, ← List.reverse_append, List.takeWhile_append_dropWhile, List.reverse_reverse]

theorem named_trimIdle (segments : List String) : named (trimIdle segments) = named segments := by
  obtain ⟨idle, hidle, heq⟩ := trimIdle_append segments
  conv_rhs => rw [heq, named_append, named_of_idle hidle, List.append_nil]

theorem mem_of_mem_trimIdle {segments : List String} {s : String} (h : s ∈ trimIdle segments) :
    s ∈ segments := by
  obtain ⟨idle, -, heq⟩ := trimIdle_append segments
  rw [heq]
  exact List.mem_append_left _ h

theorem isIdle_of_trimIdle_eq {segments front : List String} {last : String}
    (h : trimIdle segments = front ++ [last]) : isIdle last = false := by
  have hreverse : segments.reverse.dropWhile isIdle = last :: front.reverse := by
    have := congrArg List.reverse h
    simpa [trimIdle] using this
  have hne : segments.reverse.dropWhile isIdle ≠ [] := by simp [hreverse]
  simpa [hreverse] using List.head_dropWhile_not isIdle hne

/-- An absolute path is the root, or one component longer than the one above it. -/
theorem parent?_cases (h : p.isAbsolute = true) :
    p.parent? = none ∧ p.components = [.root] ∨
    ∃ up last, p.parent? = some up ∧ up.isAbsolute = true ∧
      p.components = up.components ++ [last] := by
  have hcomponents : p.components = .root :: named (trimIdle p.segments) := by
    rw [components_of_isAbsolute h, named_trimIdle]
  rw [parent?, h, trimmed_true, hcomponents]
  rcases List.eq_nil_or_concat' (trimIdle p.segments) with hnil | ⟨front, last, hlast⟩
  · exact .inl (by simp [hnil, named])
  · right
    have hsegments : ∀ s ∈ trimIdle front, '/' ∉ s.toList := fun s hs =>
      notMem_of_mem_segments s (mem_of_mem_trimIdle
        (by rw [hlast]; exact List.mem_append_left _ (mem_of_mem_trimIdle hs)))
    refine ⟨ofSegments true (trimIdle front), .ofSegment last, ?_, isAbsolute_ofSegments _, ?_⟩
    · rw [hlast]
      simp [trimmed_true]
    · rw [components_ofSegments hsegments, named_trimIdle front, hlast, named_append]
      simp [named, isIdle_of_trimIdle_eq hlast]

/-- With fuel for each component but the first, the steps up come to the root. -/
theorem components_ancestorsWithin {fuel : Nat} (h : p.isAbsolute = true)
    (hfuel : p.components.length ≤ fuel + 1) :
    (ancestorsWithin fuel p).map components =
      (List.range p.components.length).map fun i =>
        p.components.take (p.components.length - i) := by
  induction fuel generalizing p with
  | zero =>
    rcases parent?_cases h with ⟨-, hroot⟩ | ⟨up, last, -, hup, hcomponents⟩
    · simp [ancestorsWithin, hroot]
    · rw [hcomponents, components_of_isAbsolute hup] at hfuel
      simp at hfuel
  | succ fuel ih =>
    rw [ancestorsWithin]
    rcases parent?_cases h with ⟨hnone, hroot⟩ | ⟨up, last, hparent, hup, hcomponents⟩
    · simp [hnone, hroot]
    · -- the beginnings of the path are the path itself and the beginnings of the path above it
      have hlength : p.components.length = up.components.length + 1 := by simp [hcomponents]
      have hrest := ih hup (by omega)
      simp only [hparent, List.map_cons, hrest, hlength, List.range_succ_eq_map, List.map_map]
      congr 1
      · rw [Nat.sub_zero, ← hlength, List.take_length]
      · refine List.map_congr_left fun i _ => ?_
        have hle : up.components.length - i ≤ up.components.length := Nat.sub_le _ _
        rw [Function.comp_apply, Nat.succ_eq_add_one, Nat.add_sub_add_right, hcomponents,
          List.take_append_of_le_length hle]

theorem isAbsolute_of_mem_ancestorsWithin {fuel : Nat} (h : p.isAbsolute = true) :
    ∀ q ∈ ancestorsWithin fuel p, q.isAbsolute = true := by
  induction fuel generalizing p with
  | zero => exact List.forall_mem_singleton.2 h
  | succ fuel ih =>
    rw [ancestorsWithin]
    rcases parent?_cases h with ⟨hnone, -⟩ | ⟨up, last, hparent, hup, -⟩
    · rw [hnone]
      exact List.forall_mem_singleton.2 h
    · rw [hparent]
      exact List.forall_mem_cons.2 ⟨h, ih hup⟩

/-- All directories above an absolute path are spelled from the root. -/
theorem isAbsolute_of_mem_ancestors (h : p.isAbsolute = true) :
    ∀ q ∈ p.ancestors, q.isAbsolute = true :=
  isAbsolute_of_mem_ancestorsWithin h

/-- The directories that are searched: all beginnings of the path, the longest first. -/
theorem components_ancestors (h : p.isAbsolute = true) :
    p.ancestors.map components =
      (List.range p.components.length).map fun i =>
        p.components.take (p.components.length - i) := by
  refine components_ancestorsWithin h ?_
  rw [components_of_isAbsolute h, List.length_cons, named, List.length_map]
  exact Nat.succ_le_succ (List.length_filter_le _ _)

end Path

end ManifestAtlas
