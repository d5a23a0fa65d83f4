import ManifestAtlas.Proofs.ProperTrees

/-!
# Walks over a tree

A walk comes to the entries of a directory one by one.  It asks about each
whether to keep it, and from a directory that it keeps goes on to what is in
there.  `entry_mem_walkBelow` says what that is for one directory, and
`entry_mem_walkBelow_iff` what comes of it for a whole tree: an entry is come to
along names that all lead through directories which are kept and can be opened
(`Enters`, `Path.IsOpenable`).

Different entries are come to by different paths (`pairwise_walkBelow`).
-/

namespace ManifestAtlas

theorem FileEntry.type_eq_file_iff {entry : FileEntry} :
    entry.type = .file ↔ ∃ content, entry = .file content := by
  cases entry <;> simp [FileEntry.type]

namespace FileTree

variable {tree : FileTree} {keeps : WalkEntry → Bool} {depth : Nat} {place : Place} {p : Path}
  {name : String} {entry : FileEntry} {e : WalkEntry}

/-- What a walk comes across at an entry of a directory. -/
def visited (tree : FileTree) (keeps : WalkEntry → Bool) (depth : Nat) (place : Place) (p : Path)
    (child : String × FileEntry) : List Walked :=
  if keeps ⟨p.child child.1, depth + 1, child.2.type, child.1⟩ then
    .entry ⟨p.child child.1, depth + 1, child.2.type, child.1⟩ :: match child.2 with
      | .directory => tree.walkBelow keeps (depth + 1) (place ++ [child.1]) (p.child child.1)
      | _ => []
  else []

theorem walkBelow_eq (tree : FileTree) (keeps : WalkEntry → Bool) (depth : Nat) (place : Place)
    (p : Path) :
    tree.walkBelow keeps depth place p =
      if p.IsOpenable then (tree.children place).flatMap (tree.visited keeps depth place p)
      else [.failure p .nameTooLong] := by
  rw [walkBelow]
  by_cases hopen : p.IsOpenable
  · rw [if_pos hopen, if_neg (Nat.not_lt.2 hopen)]
    conv_rhs => rw [← List.attach_map_subtype_val (tree.children place), List.flatMap_map]
    refine List.flatMap_congr fun ⟨⟨name, entry⟩, hchild⟩ _ => ?_
    cases entry <;> rfl
  · rw [if_neg hopen, if_pos (Nat.lt_of_not_le hopen)]

/-- A walk comes to the entries of a directory that are kept and, from those that are directories,
to what is in there. -/
theorem entry_mem_walkBelow :
    .entry e ∈ tree.walkBelow keeps depth place p ↔
      p.IsOpenable ∧ ∃ name entry, (place ++ [name], entry) ∈ tree.entries ∧
        keeps ⟨p.child name, depth + 1, entry.type, name⟩ = true ∧
        (e = ⟨p.child name, depth + 1, entry.type, name⟩ ∨ entry = .directory ∧
          .entry e ∈ tree.walkBelow keeps (depth + 1) (place ++ [name]) (p.child name)) := by
  rw [walkBelow_eq]
  by_cases hopen : p.IsOpenable
  · rw [if_pos hopen, and_iff_right hopen, List.mem_flatMap]
    constructor
    · rintro ⟨⟨name, entry⟩, hchild, hvisited⟩
      rw [visited] at hvisited
      split at hvisited
      · rename_i hkept
        refine ⟨name, entry, mem_children.1 hchild, hkept, ?_⟩
        rcases List.mem_cons.1 hvisited with heq | hbelow
        · exact .inl (Walked.entry.inj heq)
        · cases entry with
          | directory => exact .inr ⟨rfl, hbelow⟩
          | file content => cases hbelow
          | link target => cases hbelow
      · cases hvisited
    · rintro ⟨name, entry, hmem, hkept, hentry⟩
      refine ⟨(name, entry), mem_children.2 hmem, ?_⟩
      rw [visited, if_pos hkept]
      rcases hentry with rfl | ⟨rfl, hbelow⟩
      · exact List.mem_cons_self
      · exact List.mem_cons_of_mem _ hbelow
  · simp [hopen]

/-! ## Entries of a whole tree -/

/-- A walk keeps all the directories that names lead through. -/
def Enters (keeps : WalkEntry → Bool) : (depth : Nat) → Path → (names : List String) → Prop
  | _, _, [] => True
  | depth, p, folder :: names =>
    keeps ⟨p.child folder, depth + 1, .directory, folder⟩ = true ∧
      Enters keeps (depth + 1) (p.child folder) names

/-- The entry that a walk comes to behind some directories. -/
def entryBehind (depth : Nat) (p : Path) (front : List String) (name : String) (type : EntryType) :
    WalkEntry :=
  ⟨(p.below front).child name, depth + front.length + 1, type, name⟩

theorem isOpenable_of_below {names : List String} (h : ∀ name ∈ names, IsFileName name)
    (hopen : (p.below names).IsOpenable) : p.IsOpenable := by
  induction names generalizing p with
  | nil => exact hopen
  | cons name names ih =>
    rw [List.forall_mem_cons] at h
    exact Nat.le_trans (Path.utf8ByteSize_le_child h.1 p) (ih h.2 hopen)

/-- What a walk comes to lies behind directories that it enters. -/
theorem exists_of_entry_mem (h : .entry e ∈ tree.walkBelow keeps depth place p) :
    ∃ front name entry, (place ++ (front ++ [name]), entry) ∈ tree.entries ∧
      e = entryBehind depth p front name entry.type ∧ keeps e = true ∧
      Enters keeps depth p front ∧ (p.below front).IsOpenable := by
  -- the induction is on the number of entries below the directory, as in the walk
  induction hcount : tree.countBelow place using Nat.strongRecOn generalizing depth place p with
  | _ count ih =>
    obtain ⟨hopen, name, entry, hmem, hkept, rfl | ⟨rfl, hbelow⟩⟩ := entry_mem_walkBelow.1 h
    · exact ⟨[], name, entry, hmem, rfl, hkept, trivial, hopen⟩
    · have hless := countBelow_lt (mem_children.2 hmem)
      obtain ⟨front, last, other, hother, rfl, hkept', henters, hopen'⟩ :=
        ih _ (hcount ▸ hless) hbelow rfl
      refine ⟨name :: front, last, other, by simpa using hother, ?_, hkept', ⟨hkept, henters⟩,
        hopen'⟩
      rw [entryBehind, entryBehind, Path.below_cons, List.length_cons]
      congr 1
      omega

/-- A walk comes to everything that lies behind directories which it enters. -/
theorem IsProper.entry_mem (htree : tree.IsProper) {front : List String}
    (hmem : (place ++ (front ++ [name]), entry) ∈ tree.entries)
    (hkept : keeps (entryBehind depth p front name entry.type) = true)
    (henters : Enters keeps depth p front) (hopen : (p.below front).IsOpenable) :
    .entry (entryBehind depth p front name entry.type) ∈ tree.walkBelow keeps depth place p := by
  have hnames : ∀ folder ∈ front, IsFileName folder := fun folder hfolder =>
    htree.names _ hmem folder (List.mem_append_right _ (List.mem_append_left _ hfolder))
  induction front generalizing depth place p with
  | nil => exact entry_mem_walkBelow.2 ⟨hopen, name, entry, hmem, hkept, .inl rfl⟩
  | cons folder front ih =>
    rw [List.forall_mem_cons] at hnames
    have hbehind : (place ++ [folder] ++ (front ++ [name]), entry) ∈ tree.entries := by
      simpa using hmem
    have hfolder : (place ++ [folder], .directory) ∈ tree.entries :=
      (htree.find?_eq_some_iff (by simp)).1 (htree.find?_prefix (by simp) hbehind)
    have hsame : entryBehind depth p (folder :: front) name entry.type =
        entryBehind (depth + 1) (p.child folder) front name entry.type := by
      rw [entryBehind, entryBehind, Path.below_cons, List.length_cons]
      congr 1
      omega
    rw [hsame] at hkept ⊢
    refine entry_mem_walkBelow.2 ⟨?_, folder, .directory, hfolder, henters.1, .inr ⟨rfl, ?_⟩⟩
    · exact isOpenable_of_below (List.forall_mem_cons.2 hnames) hopen
    · exact ih hbehind hkept henters.2 hopen hnames.2

/-- A walk comes to the entries that it keeps, in the directories that it can open behind those that
it enters. -/
theorem IsProper.entry_mem_walkBelow_iff (htree : tree.IsProper) :
    .entry e ∈ tree.walkBelow keeps depth place p ↔
      ∃ front name entry, (place ++ (front ++ [name]), entry) ∈ tree.entries ∧
        e = entryBehind depth p front name entry.type ∧ keeps e = true ∧
        Enters keeps depth p front ∧ (p.below front).IsOpenable := by
  refine ⟨exists_of_entry_mem, ?_⟩
  rintro ⟨front, name, entry, hmem, rfl, hkept, henters, hopen⟩
  exact htree.entry_mem hmem hkept henters hopen

/-! ## Different entries -/

/-- The path of what a walk comes to is that of the directory with names behind it. -/
theorem IsProper.exists_names (htree : tree.IsProper)
    (h : .entry e ∈ tree.walkBelow keeps depth place p) :
    ∃ names, names ≠ [] ∧ e.path = p.below names ∧ ∀ name ∈ names, IsFileName name := by
  obtain ⟨front, name, entry, hmem, rfl, -⟩ := exists_of_entry_mem h
  refine ⟨front ++ [name], by simp, (Path.below_append p front name).symm, fun n hn => ?_⟩
  exact htree.names _ hmem n (List.mem_append_right _ hn)

theorem IsProper.exists_names_visited (htree : tree.IsProper)
    (hchild : (name, entry) ∈ tree.children place)
    (h : .entry e ∈ tree.visited keeps depth place p (name, entry)) :
    ∃ names, e.path = p.below (name :: names) ∧ ∀ n ∈ name :: names, IsFileName n := by
  have hname : IsFileName name := htree.names _ (mem_children.1 hchild) name (by simp)
  rw [visited] at h
  split at h
  · rcases List.mem_cons.1 h with heq | hbelow
    · obtain rfl := Walked.entry.inj heq
      exact ⟨[], rfl, by simpa using hname⟩
    · cases entry with
      | directory =>
        obtain ⟨names, -, hpath, hnames⟩ := htree.exists_names hbelow
        exact ⟨names, hpath, List.forall_mem_cons.2 ⟨hname, hnames⟩⟩
      | file content => cases hbelow
      | link target => cases hbelow
  · cases h

theorem IsProper.pairwise_children (htree : tree.IsProper) :
    (tree.children place).Pairwise fun c d => c.1 ≠ d.1 := by
  have hplaces : tree.entries.Pairwise fun d e => d.1 ≠ e.1 := List.pairwise_map.1 htree.nodup
  refine List.pairwise_filterMap.2 (hplaces.imp fun {d e} hne c hc c' hc' heq => hne ?_)
  split at hc
  · split at hc'
    · rename_i hplace hplace'
      obtain ⟨name, hname, rfl⟩ := Option.map_eq_some_iff.1 hc
      obtain ⟨other, hother, rfl⟩ := Option.map_eq_some_iff.1 hc'
      obtain rfl : name = other := heq
      obtain ⟨front, hfront⟩ := List.getLast?_eq_some_iff.1 hname
      obtain ⟨front', hfront'⟩ := List.getLast?_eq_some_iff.1 hother
      rw [hfront, List.dropLast_concat] at hplace
      rw [hfront', List.dropLast_concat] at hplace'
      rw [hfront, hfront', hplace, hplace']
    · cases hc'
  · cases hc

/-- Two things that a walk comes across are not entries whose paths have the same components. -/
def Apart (v w : Walked) : Prop :=
  ∀ e f, v = .entry e → w = .entry f → e.path.components ≠ f.path.components

theorem IsProper.pairwise_visited (htree : tree.IsProper)
    (hchild : (name, entry) ∈ tree.children place)
    (hbelow : (tree.walkBelow keeps (depth + 1) (place ++ [name]) (p.child name)).Pairwise Apart) :
    (tree.visited keeps depth place p (name, entry)).Pairwise Apart := by
  have hname : IsFileName name := htree.names _ (mem_children.1 hchild) name (by simp)
  rw [visited]
  split
  · cases entry with
    | directory =>
      refine List.pairwise_cons.2 ⟨?_, hbelow⟩
      rintro w hw e f he rfl heq
      -- what is in the directory has one name more at least
      obtain ⟨names, hne, hpath, hnames⟩ := htree.exists_names hw
      obtain rfl := Walked.entry.inj he
      rw [hpath] at heq
      have hbehind : (p.below [name]).components = (p.below (name :: names)).components := heq
      have hcons := Path.names_eq_of_components (by simpa using hname)
        (List.forall_mem_cons.2 ⟨hname, hnames⟩) hbehind
      exact hne (List.cons.inj hcons).2.symm
    | file content => exact List.pairwise_singleton _ _
    | link target => exact List.pairwise_singleton _ _
  · exact .nil

/-- A walk comes to no two entries by paths with the same components. -/
theorem IsProper.pairwise_walkBelow (htree : tree.IsProper) :
    (tree.walkBelow keeps depth place p).Pairwise Apart := by
  induction hcount : tree.countBelow place using Nat.strongRecOn generalizing depth place p with
  | _ count ih =>
    rw [walkBelow_eq]
    split
    · refine List.pairwise_flatMap.2 ⟨?_, ?_⟩
      · rintro ⟨name, entry⟩ hchild
        exact htree.pairwise_visited hchild (ih _ (hcount ▸ countBelow_lt hchild) rfl)
      · refine htree.pairwise_children.imp_of_mem ?_
        rintro ⟨name, entry⟩ ⟨other, entry'⟩ hchild hother hne v hv w hw e f rfl rfl heq
        obtain ⟨names, hpath, hnames⟩ := htree.exists_names_visited hchild hv
        obtain ⟨others, hpath', hothers⟩ := htree.exists_names_visited hother hw
        rw [hpath, hpath'] at heq
        exact hne (List.cons.inj (Path.names_eq_of_components hnames hothers heq)).1
    · exact List.pairwise_singleton _ _

end FileTree

end ManifestAtlas
