import Mathlib.Data.List.Induction
import ManifestAtlas.Proofs.EntryPaths
import ManifestAtlas.Proofs.Lookups

/-!
# Proper trees

A file tree is proper if every place in it is there once, is reached by names,
and lies in a directory.  What is found at a place of such a tree is what is
listed for it (`IsProper.find?_eq_some_iff`), and writing to a file keeps it
proper (`IsProper.insert`).

The path of something below a directory is the path of the directory with names
behind it (`Path.below`).  It leads to the place that the names spell from there
(`Disk.resolve_below`), and different names make different paths
(`Path.names_eq_of_components`).
-/

namespace ManifestAtlas

open FileTree

/-! ## Proper trees -/

namespace FileTree

/-- Every place of a tree is there once, is reached by names, and lies in a directory. -/
structure IsProper (tree : FileTree) : Prop where
  nodup : (tree.entries.map Prod.fst).Nodup
  ne_nil : ∀ e ∈ tree.entries, e.1 ≠ []
  names : ∀ e ∈ tree.entries, ∀ name ∈ e.1, IsFileName name
  closed : ∀ e ∈ tree.entries, tree.find? e.1.dropLast = some .directory

variable {tree : FileTree} {place : Place} {entry : FileEntry}

/-- What is found at a place is the entry that is there. -/
theorem IsProper.find?_eq_some_iff (h : tree.IsProper) (hplace : place ≠ []) :
    tree.find? place = some entry ↔ (place, entry) ∈ tree.entries := by
  have hkey : (fun e : Place × FileEntry => decide (e.1 = place)) = (Prod.fst · == place) := by
    funext e
    exact (Bool.beq_eq_decide_eq e.1 place).symm
  rw [find?, if_neg (by simpa using hplace), Option.map_eq_some_iff, hkey]
  simp only [find?_key_eq_some_iff h.nodup]
  constructor
  · rintro ⟨e, ⟨hmem, rfl⟩, rfl⟩
    exact hmem
  · exact fun hmem => ⟨_, ⟨hmem, rfl⟩, rfl⟩

/-- A place lies in directories all the way. -/
theorem IsProper.find?_prefix (h : tree.IsProper) {front rest : Place} (hrest : rest ≠ [])
    (hmem : (front ++ rest, entry) ∈ tree.entries) : tree.find? front = some .directory := by
  induction rest using List.reverseRecOn generalizing entry with
  | nil => exact absurd rfl hrest
  | append_singleton rest name ih =>
    have hparent := h.closed _ hmem
    rw [← List.append_assoc, List.dropLast_concat] at hparent
    cases rest with
    | nil => simpa using hparent
    | cons first rest =>
      exact ih (by simp) ((h.find?_eq_some_iff (by simp)).1 hparent)

/-- Another content in a file keeps a tree proper. -/
theorem IsProper.insert (h : tree.IsProper) {content other : ByteArray}
    (hfile : tree.find? place = some (.file content)) :
    (tree.insert place (.file other)).IsProper := by
  have hplace : place ≠ [] := by
    rintro rfl
    simp [find?] at hfile
  have hmem := (h.find?_eq_some_iff hplace).1 hfile
  have hdirectory : ∀ e ∈ tree.entries,
      (tree.insert place (.file other)).find? e.1.dropLast = some .directory := fun e he => by
    -- nothing lies in the file, so that its place is the parent of none
    rw [find?_insert_of_ne, h.closed e he]
    intro heq
    have := h.closed e he
    rw [heq, hfile] at this
    cases this
  refine ⟨?_, ?_, ?_, ?_⟩
  · simp only [FileTree.insert, List.map_cons, List.nodup_cons]
    refine ⟨by simp, ?_⟩
    exact h.nodup.sublist (List.filter_sublist.map _)
  · exact List.forall_mem_cons.2 ⟨hplace, fun e he => h.ne_nil e (List.mem_filter.1 he).1⟩
  · have hnames : ∀ name ∈ place, IsFileName name := h.names (place, .file content) hmem
    exact List.forall_mem_cons.2 ⟨hnames, fun e he => h.names e (List.mem_filter.1 he).1⟩
  · refine List.forall_mem_cons.2 ⟨hdirectory (place, .file content) hmem, fun e he => ?_⟩
    exact hdirectory e (List.mem_filter.1 he).1

end FileTree

/-! ## Paths below a directory -/

/-- The path of a directory is short enough for the system to open it. -/
def Path.IsOpenable (p : Path) : Prop :=
  p.text.utf8ByteSize ≤ maxPathBytes

instance (p : Path) : Decidable p.IsOpenable :=
  inferInstanceAs (Decidable (_ ≤ _))

namespace Path

variable {root : Path}

@[simp] theorem below_nil (root : Path) : root.below [] = root := rfl

@[simp] theorem below_cons (root : Path) (name : String) (names : List String) :
    root.below (name :: names) = (root.child name).below names := rfl

@[simp] theorem below_singleton (root : Path) (name : String) :
    root.below [name] = root.child name := rfl

@[simp] theorem below_append (root : Path) (front : List String) (name : String) :
    root.below (front ++ [name]) = (root.below front).child name := by
  simp [below]

theorem components_below {names : List String} (h : ∀ name ∈ names, IsFileName name) :
    (root.below names).components = root.components ++ names.map .name := by
  induction names using List.reverseRecOn with
  | nil => simp
  | append_singleton names name ih =>
    rw [List.forall_mem_append, List.forall_mem_singleton] at h
    rw [below_append, components_child h.2, ih h.1]
    simp

/-- Different names lead to different paths. -/
theorem names_eq_of_components {names others : List String} (h : ∀ name ∈ names, IsFileName name)
    (hothers : ∀ name ∈ others, IsFileName name)
    (heq : (root.below names).components = (root.below others).components) : names = others := by
  rw [components_below h, components_below hothers, List.append_cancel_left_eq] at heq
  exact List.map_injective_iff.2 (fun s t hst => Component.name.inj hst) heq

end Path

/-- Below a directory, names that lead through directories lead to the place they spell. -/
theorem Disk.resolve_below {disk : Disk} {root : Path} {place : Place} {names : List String}
    (h : disk.resolve .look root = .ok (.present place .directory))
    (hnames : ∀ name ∈ names, IsFileName name)
    (hdirectories : ∀ front rest, names = front ++ rest → front ≠ [] →
      disk.tree.find? (place ++ front) = some .directory)
    (hsize : (root.below names).text.utf8ByteSize ≤ maxPathBytes) :
    disk.resolve .look (root.below names) = .ok (.present (place ++ names) .directory) := by
  induction names using List.reverseRecOn with
  | nil => simpa using h
  | append_singleton names name ih =>
    rw [List.forall_mem_append, List.forall_mem_singleton] at hnames
    rw [Path.below_append] at hsize ⊢
    have hprefix : ∀ front rest, names = front ++ rest → front ≠ [] →
        disk.tree.find? (place ++ front) = some .directory := fun front rest heq =>
      hdirectories front (rest ++ [name]) (by rw [heq, List.append_assoc])
    have hparent := ih hnames.1 hprefix
      (Nat.le_trans (Path.utf8ByteSize_le_child hnames.2 _) hsize)
    have hself : disk.tree.find? (place ++ names ++ [name]) = some .directory := by
      rw [List.append_assoc]
      exact hdirectories (names ++ [name]) [] (by simp) (by simp)
    rw [resolve_child hnames.2 hparent hsize fun target => by rw [hself]; simp, hself,
      List.append_assoc]

end ManifestAtlas
