import Mathlib
import ManifestAtlas.Render.DiagramFile

/-!
# Every file gets the first free path

`firstFree` tries the suffixes of a file one after the other and is given a
bound on their number, `assignPaths` hands each file the first free path and
goes on with one more path in use.  There are two groups.

* One file.  `IsFirstFree` says which candidate is meant.  The suffixes give
  different paths (`path_suffixed_injective`), so that among one more suffixes
  than there are paths in use one is free: the bound is never met
  (`isFirstFree_firstFree`).
* A list of files.  The invariant is that the paths in use are the ones in use
  at the start and those of the files before (`isFirstFree_assignPaths`).
  Files that are added at the end change nothing for those before them
  (`assignPaths_isPrefix`).
-/

namespace ManifestAtlas

/-- The first candidate that is not taken, which is found after no more steps than there are texts
taken. -/
def IsFirstFree (candidate : Nat → String) (taken : List String) (text : String) : Prop :=
  ∃ n, n ≤ taken.length ∧ text = candidate n ∧ candidate n ∉ taken ∧
    ∀ i, i < n → candidate i ∈ taken

/-- The order in which texts were taken makes no difference. -/
theorem IsFirstFree.perm {candidate : Nat → String} {taken others : List String} {text : String}
    (h : IsFirstFree candidate taken text) (hperm : taken.Perm others) :
    IsFirstFree candidate others text := by
  obtain ⟨n, hn, htext, hfree, hbefore⟩ := h
  refine ⟨n, by rw [← hperm.length_eq]; exact hn, htext, ?_, ?_⟩
  · rw [← hperm.mem_iff]
    exact hfree
  · intro i hi
    rw [← hperm.mem_iff]
    exact hbefore i hi

namespace DiagramFile

/-! ## One file -/

/-- What the `n`-th suffix appends to the stem: nothing, `-2`, `-3` and so on. -/
def numberSuffix : (n : Nat) → String
  | 0 => ""
  | n + 1 => "-" ++ (n + 2).repr

/-- What stands before the stem in the path of a file. -/
def directory (file : DiagramFile) : String :=
  String.join (file.folders.map (· ++ "/"))

theorem intercalate_append_singleton (folders : List String) (name : String) :
    "/".intercalate (folders ++ [name]) = String.join (folders.map (· ++ "/")) ++ name := by
  induction folders with
  | nil => simp
  | cons folder folders ih =>
    have hne : folders ++ [name] ≠ [] := by simp
    rw [List.cons_append, String.intercalate_cons_of_ne_nil hne, ih]
    simp [String.append_assoc]

theorem path_suffixed (file : DiagramFile) (n : Nat) :
    (file.suffixed n).path =
      file.directory ++ file.stem ++ numberSuffix n ++ "." ++ file.kind.extension := by
  rw [path, intercalate_append_singleton]
  cases n with
  | zero => simp [suffixed, directory, numberSuffix, String.append_assoc]
  | succ n =>
    show file.directory ++ (s!"{file.stem}-{n + 2}" ++ "." ++ file.kind.extension) = _
    simp [numberSuffix, String.append_assoc, toString]

theorem numberSuffix_injective : Function.Injective numberSuffix := by
  intro m n h
  cases m with
  | zero =>
    cases n with
    | zero => rfl
    | succ n => simp [numberSuffix] at h
  | succ m =>
    cases n with
    | zero => simp [numberSuffix] at h
    | succ n =>
      have hrepr : (m + 2).repr = (n + 2).repr := by simpa [numberSuffix] using h
      have hsucc := Nat.repr_injective hrepr
      omega

theorem path_suffixed_injective (file : DiagramFile) :
    Function.Injective fun n => (file.suffixed n).path := by
  intro m n h
  apply numberSuffix_injective
  simpa [path_suffixed, String.append_assoc] using h

/-- A search stops at the first free suffix, or at the last one that it may try. -/
theorem firstFree_spec (file : DiagramFile) (taken : List String) (fuel n : Nat) :
    ∃ m, n ≤ m ∧ file.firstFree taken fuel n = file.suffixed m ∧
      (∀ i, n ≤ i → i < m → (file.suffixed i).path ∈ taken) ∧
      (m = n + fuel ∨ m < n + fuel ∧ (file.suffixed m).path ∉ taken) := by
  induction fuel generalizing n with
  | zero => exact ⟨n, Nat.le_refl n, rfl, fun i _ _ => by omega, .inl rfl⟩
  | succ fuel ih =>
    rw [firstFree]
    by_cases hn : (file.suffixed n).path ∈ taken
    · obtain ⟨m, hnm, hfile, hbefore, hend⟩ := ih (n + 1)
      rw [if_pos (List.contains_iff_mem.2 hn)]
      refine ⟨m, by omega, hfile, ?_, ?_⟩
      · intro i hi him
        by_cases hin : i = n
        · rw [hin]
          exact hn
        · exact hbefore i (by omega) him
      · rcases hend with hend | ⟨hlt, hfree⟩
        · exact .inl (by omega)
        · exact .inr ⟨by omega, hfree⟩
    · rw [if_neg fun h => hn (List.contains_iff_mem.1 h)]
      exact ⟨n, Nat.le_refl n, rfl, fun i _ _ => by omega, .inr ⟨by omega, hn⟩⟩

/-- Not all of the first suffixes are taken when there is one more of them than taken paths. -/
theorem exists_free_suffix (file : DiagramFile) (taken : List String) :
    ∃ i, i ≤ taken.length ∧ (file.suffixed i).path ∉ taken := by
  by_contra hnone
  have hsubset : (List.range (taken.length + 1)).map (fun i => (file.suffixed i).path) ⊆ taken := by
    intro path hpath
    obtain ⟨i, hi, rfl⟩ := List.mem_map.1 hpath
    by_contra hfree
    exact hnone ⟨i, by simpa [Nat.lt_succ_iff] using hi, hfree⟩
  have hnodup : ((List.range (taken.length + 1)).map fun i => (file.suffixed i).path).Nodup :=
    List.nodup_range.map file.path_suffixed_injective
  have hle := hnodup.length_le_of_subset hsubset
  rw [List.length_map, List.length_range] at hle
  omega

/-- The search for a free path ends with the first one. -/
theorem isFirstFree_firstFree (file : DiagramFile) (taken : List String) :
    ∃ n, file.firstFree taken taken.length 0 = file.suffixed n ∧
      IsFirstFree (fun n => (file.suffixed n).path) taken (file.suffixed n).path := by
  obtain ⟨m, _, hfile, hbefore, hend⟩ := firstFree_spec file taken taken.length 0
  rw [Nat.zero_add] at hend
  refine ⟨m, hfile, m, ?_, rfl, ?_, fun i hi => hbefore i (Nat.zero_le i) hi⟩
  · rcases hend with hend | ⟨hlt, _⟩ <;> omega
  · rcases hend with hend | ⟨_, hfree⟩
    · obtain ⟨i, hi, hfree⟩ := exists_free_suffix file taken
      by_cases him : i = m
      · rw [← him]
        exact hfree
      · exact absurd (hbefore i (Nat.zero_le i) (by omega)) hfree
    · exact hfree

/-! ## A list of files -/

/-- The file at a position gets the first path that neither was in use at the start nor went to a
file before it. -/
theorem isFirstFree_assignPaths (taken : List String) (files : List DiagramFile) {k : Nat}
    {file : DiagramFile} (h : files[k]? = some file) :
    ∃ n, (assignPaths taken files)[k]? = some (file.suffixed n) ∧
      IsFirstFree (fun n => (file.suffixed n).path)
        (((assignPaths taken files).take k).map path ++ taken) (file.suffixed n).path := by
  induction files generalizing taken k with
  | nil => simp at h
  | cons first files ih =>
    rw [assignPaths]
    cases k with
    | zero =>
      obtain rfl : first = file := by simpa using h
      obtain ⟨n, hfile, hfirst⟩ := isFirstFree_firstFree first taken
      exact ⟨n, by rw [hfile]; rfl, hfirst⟩
    | succ k =>
      have hrest : files[k]? = some file := by simpa using h
      obtain ⟨n, hget, hfirst⟩ := ih _ hrest
      exact ⟨n, hget, hfirst.perm List.perm_middle⟩

/-- A suffix can be the name of another file: that file then gets a suffix of its own. -/
example : (assignPaths [] [⟨.flow, [], "a"⟩, ⟨.flow, [], "a"⟩, ⟨.flow, [], "a-2"⟩]).map path =
    ["a.mmd", "a-2.mmd", "a-2-2.mmd"] := by
  decide +kernel

/-- The paths that files get are not in use, and different from each other. -/
theorem nodup_assignPaths (taken : List String) (files : List DiagramFile) :
    ((assignPaths taken files).map path).Nodup ∧
      ∀ text ∈ (assignPaths taken files).map path, text ∉ taken := by
  induction files generalizing taken with
  | nil => simp [assignPaths]
  | cons file files ih =>
    obtain ⟨n, hfile, _, _, hpath, hfree, _⟩ := isFirstFree_firstFree file taken
    rw [assignPaths, List.map_cons, hfile]
    obtain ⟨hnodup, hunused⟩ := ih ((file.suffixed n).path :: taken)
    refine ⟨List.nodup_cons.2 ⟨fun hmem => ?_, hnodup⟩, ?_⟩
    · exact hunused _ hmem List.mem_cons_self
    · intro text htext
      rcases List.mem_cons.1 htext with rfl | htext
      · rw [hpath]
        exact hfree
      · exact fun htaken => hunused text htext (List.mem_cons_of_mem _ htaken)

/-- Files at the end do not change what the files before them get. -/
theorem assignPaths_isPrefix (taken : List String) (files more : List DiagramFile) :
    assignPaths taken files <+: assignPaths taken (files ++ more) := by
  induction files generalizing taken with
  | nil => exact List.nil_prefix
  | cons file files ih =>
    rw [List.cons_append, assignPaths, assignPaths, List.prefix_cons_inj]
    exact ih _

end DiagramFile

end ManifestAtlas
