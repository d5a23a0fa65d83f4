import ManifestAtlas.Proofs.ProperTrees

/-!
# Files in a directory

A directory holds a file if the tree has one at its place, or a link there that
leads to one (`Disk.HoldsFile`).  How the path of the directory is spelled does
not matter for that.  It does matter for the system, which takes no path that
is too long: it finds exactly the files whose own path is short enough
(`Disk.status_child_eq_file_iff`).
-/

namespace ManifestAtlas

open FileTree

/-! ## Characters of a path -/

theorem exists_mem_splitSlashes {c : Char} {cs : List Char} (hc : c ≠ '/') (h : c ∈ cs) :
    ∃ s ∈ splitSlashes cs, c ∈ s := by
  induction cs with
  | nil => cases h
  | cons d rest ih =>
    rw [splitSlashes]
    split
    · rename_i hd
      have hrest : c ∈ rest := by simpa [hd, hc] using h
      obtain ⟨s, hs, hcs⟩ := ih hrest
      exact ⟨s, List.mem_cons_of_mem _ hs, hcs⟩
    · obtain ⟨first, more, hsplit⟩ := List.exists_cons_of_ne_nil (Path.splitSlashes_ne_nil rest)
      rw [hsplit] at ih ⊢
      rcases List.mem_cons.1 h with rfl | hrest
      · exact ⟨_, List.mem_cons_self, List.mem_cons_self⟩
      · obtain ⟨s, hs, hcs⟩ := ih hrest
        rcases List.mem_cons.1 hs with rfl | hmore
        · exact ⟨_, List.mem_cons_self, List.mem_cons_of_mem _ hcs⟩
        · exact ⟨s, List.mem_cons_of_mem _ hmore, hcs⟩

/-- A character of an absolute path, other than a slash, stands in one of its segments. -/
theorem Path.exists_mem_segments {p : Path} {c : Char} (hp : p.isAbsolute = true) (hc : c ≠ '/')
    (h : c ∈ p.text.toList) : ∃ s ∈ p.segments, c ∈ s.toList := by
  rw [exists_text_eq hp] at h
  obtain ⟨cs, hcs, hmem⟩ := exists_mem_splitSlashes hc ((List.mem_cons.1 h).resolve_left hc)
  exact ⟨.ofList cs, List.mem_map_of_mem hcs, by rwa [String.toList_ofList]⟩

theorem FileTree.IsProper.isFileName {tree : FileTree} (htree : tree.IsProper) {place : Place}
    {name : String} {entry : FileEntry} (h : tree.find? (place ++ [name]) = some entry) :
    IsFileName name :=
  htree.names _ ((htree.find?_eq_some_iff (by simp)).1 h) name (by simp)

/-- What leads to a directory of a proper tree is spelled without NUL. -/
theorem FileTree.IsProper.noNul_of_follow {tree : FileTree} (htree : tree.IsProper) {links : Nat}
    {place q : Place} {segments : List String}
    (h : tree.follow .look links place segments = .ok (.present q .directory)) :
    ∀ s ∈ segments, '\x00' ∉ s.toList := by
  have hidleName : ∀ s, isIdle s = true → '\x00' ∉ s.toList := fun s hs => by
    rcases (by simpa [isIdle] using hs : s = "" ∨ s = ".") with rfl | rfl <;> decide
  fun_induction follow tree .look links place segments with
  | case1 => exact fun s hs => absurd hs List.not_mem_nil
  | case2 _ _ _ _ hidle ih => exact List.forall_mem_cons.2 ⟨hidleName _ hidle, ih h⟩
  | case3 _ _ _ _ ih => exact List.forall_mem_cons.2 ⟨by decide, ih h⟩
  | case10 _ _ _ _ _ _ _ _ hfind ih =>
    exact List.forall_mem_cons.2 ⟨(htree.isFileName hfind).noNul, ih h⟩
  | case12 _ _ _ _ _ _ _ _ hfind _ _ ih =>
    have hrest := (List.forall_mem_append.1 (ih (by simpa using h))).2
    exact List.forall_mem_cons.2 ⟨(htree.isFileName hfind).noNul, hrest⟩
  | case13 _ _ _ _ _ _ _ _ _ _ hfollows => exact absurd rfl hfollows
  | case4 | case5 | case6 | case7 | case8 | case9 | case11 => cases h

/-! ## Files that are held -/

namespace Disk

/-- A directory directly holds a file of a name: at the place that its path leads to there is a file
of that name, or a link that leads to a file.  No path is too long for that. -/
def HoldsFile (disk : Disk) (directory : Path) (name : String) : Prop :=
  ∃ place,
    disk.tree.follow .look maxLinks (disk.startOf directory) directory.segments =
      .ok (.present place .directory) ∧
    ((∃ content, disk.tree.find? (place ++ [name]) = some (.file content)) ∨
      ∃ target found content, disk.tree.find? (place ++ [name]) = some (.link target) ∧
        disk.tree.follow .look maxLinks (disk.startOf directory) (directory.segments ++ [name]) =
          .ok (.present found (.file content)))

/-- A file that a directory directly holds, by a path that the system takes. -/
def HoldsInReach (disk : Disk) (directory : Path) (name : String) : Prop :=
  disk.HoldsFile directory name ∧ (directory.child name).IsOpenable

variable {disk : Disk} {directory : Path} {name : String}

/-- A file is held where the name leads to a file from the directory. -/
theorem holdsFile_iff (hname : IsFileName name) :
    disk.HoldsFile directory name ↔ ∃ found content,
      disk.tree.follow .look maxLinks (disk.startOf directory) (directory.segments ++ [name]) =
        .ok (.present found (.file content)) := by
  constructor
  · rintro ⟨place, hplace, ⟨content, hfile⟩ | ⟨target, found, content, -, hfound⟩⟩
    · obtain ⟨left, hleft⟩ := exists_follow_append hplace
      exact ⟨place ++ [name], content, by rw [hleft, follow_name hname (by simp [hfile]), hfile]⟩
    · exact ⟨found, content, hfound⟩
  · rintro ⟨found, content, hfound⟩
    obtain ⟨place, hplace⟩ := exists_follow_of_append hname.ne_empty hfound
    obtain ⟨left, hleft⟩ := exists_follow_append hplace
    refine ⟨place, hplace, ?_⟩
    have hlast := hfound
    rw [hleft] at hlast
    cases hfind : disk.tree.find? (place ++ [name]) with
    | none =>
      rw [follow_name hname (by simp [hfind]), hfind] at hlast
      cases hlast
    | some entry =>
      cases entry with
      | file other => exact .inl ⟨other, rfl⟩
      | directory =>
        rw [follow_name hname (by simp [hfind]), hfind] at hlast
        cases hlast
      | link target => exact .inr ⟨target, found, content, rfl, hfound⟩

/-- The system finds the files that a directory holds, as long as it takes their paths. -/
theorem status_child_eq_file_iff (htree : disk.tree.IsProper) (hname : IsFileName name)
    (habsolute : directory.isAbsolute = true) :
    disk.status (directory.child name) = .ok .file ↔ disk.HoldsInReach directory name := by
  have hempty : directory.text ≠ "" := fun h => by simp [Path.isAbsolute, h] at habsolute
  have hstart : disk.startOf (directory.child name) = disk.startOf directory := by
    rw [startOf, startOf, Path.isAbsolute_child hname hempty]
  rw [HoldsInReach, holdsFile_iff hname]
  constructor
  · intro hstatus
    obtain ⟨found, content, hresolve⟩ : ∃ found content,
        disk.resolve .look (directory.child name) = .ok (.present found (.file content)) := by
      rw [status] at hstatus
      split at hstatus
      · cases hstatus
      · exact ⟨_, _, ‹_›⟩
      · cases hstatus
      · cases hstatus
    have husable := isUsable_of_resolve hresolve
    rw [resolve_of_isUsable husable, hstart, follow_segments_child hname] at hresolve
    exact ⟨⟨found, content, hresolve⟩, husable.bounded⟩
  · rintro ⟨⟨found, content, hfound⟩, hopen⟩
    obtain ⟨place, hplace⟩ := exists_follow_of_append hname.ne_empty hfound
    have husable : directory.IsUsable := by
      refine ⟨?_, by simpa using hempty,
        Nat.le_trans (Path.utf8ByteSize_le_child hname _) hopen⟩
      suffices hnul : '\x00' ∉ directory.text.toList by simpa using hnul
      intro hnul
      obtain ⟨s, hs, hmem⟩ := Path.exists_mem_segments habsolute (by decide) hnul
      exact htree.noNul_of_follow hplace s hs hmem
    rw [status, resolve_of_isUsable (isUsable_child hname husable hopen), hstart,
      follow_segments_child hname, hfound]

end Disk

end ManifestAtlas
