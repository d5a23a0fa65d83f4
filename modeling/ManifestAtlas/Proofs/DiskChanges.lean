import ManifestAtlas.Proofs.FollowedPaths
import ManifestAtlas.Workspace.Write

/-!
# Changes of a disk

What an operation does to a disk is said place by place.  `ChangesOnly` names
the places that may be different; everywhere else the disk is as before, or has
a new directory where there was nothing.  `Keeps` says that nothing is gone,
and `Stores` is both together for one file.  Making a directory changes no
place that had an entry (`changesOnly_of_makeDirectory`), writing a file stores
it (`stores_of_write`), and what has been written once can be written again
(`canStore_of_write`).
-/

namespace ManifestAtlas

open FileTree

namespace Disk

/-- A disk keeps the entries of another one, up to the contents of files. -/
structure Keeps (disk other : Disk) : Prop where
  workingDirectory : other.workingDirectory = disk.workingDirectory
  tree : disk.tree.KindsKept other.tree

/-- A disk is like another one except at some places, and for directories where that one has
nothing. -/
structure ChangesOnly (disk other : Disk) (places : List Place) : Prop where
  workingDirectory : other.workingDirectory = disk.workingDirectory
  elsewhere : ∀ place, place ∉ places →
    other.tree.find? place = disk.tree.find? place ∨
      disk.tree.find? place = none ∧ other.tree.find? place = some .directory

/-- A disk is another one after a file was written: the file is there, where there was a file or
nothing before, and nothing else is different. -/
structure Stores (disk other : Disk) (p : Path) (content : ByteArray) : Prop
    extends ChangesOnly disk other [disk.placeOf p] where
  before : ∀ entry, disk.tree.find? (disk.placeOf p) = some entry →
    entry.SameKind (.file content)
  found : other.tree.find? (disk.placeOf p) = some (.file content)
  read : other.read p = .ok content

variable {disk other third : Disk} {p : Path} {text : String} {content : ByteArray}
  {places more : List Place}

theorem Keeps.trans (h : disk.Keeps other) (h' : other.Keeps third) : disk.Keeps third :=
  ⟨h'.workingDirectory.trans h.workingDirectory, h.tree.trans h'.tree⟩

theorem Keeps.startOf_eq (h : disk.Keeps other) (p : Path) : other.startOf p = disk.startOf p := by
  rw [startOf, startOf, h.workingDirectory]

theorem Keeps.placeOf_eq (h : disk.Keeps other) (p : Path) : other.placeOf p = disk.placeOf p := by
  rw [placeOf, placeOf, h.startOf_eq]

namespace ChangesOnly

theorem refl (disk : Disk) : disk.ChangesOnly disk places :=
  ⟨rfl, fun _ _ => .inl rfl⟩

theorem trans (h : disk.ChangesOnly other places) (h' : other.ChangesOnly third more) :
    disk.ChangesOnly third (places ++ more) := by
  refine ⟨h'.workingDirectory.trans h.workingDirectory, fun place hplace => ?_⟩
  rw [List.mem_append, not_or] at hplace
  rcases h.elsewhere place hplace.1 with hsame | ⟨hnone, hmade⟩
  · rw [← hsame]
    exact h'.elsewhere place hplace.2
  · rcases h'.elsewhere place hplace.2 with hsame | ⟨hnone', _⟩
    · exact .inr ⟨hnone, hsame.trans hmade⟩
    · rw [hmade] at hnone'
      cases hnone'

/-- Whether a disk keeps everything is decided at the places that may have changed. -/
theorem keeps (h : disk.ChangesOnly other places)
    (hplaces : ∀ place ∈ places, ∀ entry, disk.tree.find? place = some entry →
      ∃ kept, other.tree.find? place = some kept ∧ entry.SameKind kept) :
    disk.Keeps other := by
  refine ⟨h.workingDirectory, fun place entry hentry => ?_⟩
  by_cases hplace : place ∈ places
  · exact hplaces place hplace entry hentry
  · rcases h.elsewhere place hplace with hsame | ⟨hnone, _⟩
    · exact ⟨entry, hsame.trans hentry, .refl entry⟩
    · rw [hnone] at hentry
      cases hentry

theorem isLinkFree (h : disk.ChangesOnly other places) (htree : disk.tree.IsLinkFree)
    (hplaces : ∀ place ∈ places, ∃ content, other.tree.find? place = some (.file content)) :
    other.tree.IsLinkFree := by
  intro place target hlink
  by_cases hplace : place ∈ places
  · obtain ⟨content, hfile⟩ := hplaces place hplace
    rw [hfile] at hlink
    cases hlink
  · rcases h.elsewhere place hplace with hsame | ⟨_, hmade⟩
    · exact htree place target (hsame ▸ hlink)
    · rw [hmade] at hlink
      cases hlink

theorem keeps_of_nil (h : disk.ChangesOnly other []) : disk.Keeps other :=
  h.keeps fun _ hplace => absurd hplace List.not_mem_nil

theorem isLinkFree_of_nil (h : disk.ChangesOnly other []) (htree : disk.tree.IsLinkFree) :
    other.tree.IsLinkFree :=
  h.isLinkFree htree fun _ hplace => absurd hplace List.not_mem_nil

/-- Directories may be made before a file is written. -/
theorem stores (h : disk.ChangesOnly other []) (h' : other.Stores third p content) :
    disk.Stores third p content := by
  have hkeeps := h.keeps_of_nil
  have hplace := hkeeps.placeOf_eq p
  refine ⟨hplace ▸ h.trans h'.toChangesOnly, fun entry hentry => ?_, ?_, h'.read⟩
  · obtain ⟨kept, hkept, hkind⟩ := hkeeps.tree _ entry hentry
    exact hkind.trans (h'.before kept (hplace ▸ hkept))
  · rw [← hplace, h'.found]

end ChangesOnly

theorem Stores.keeps (h : disk.Stores other p content) : disk.Keeps other := by
  refine h.toChangesOnly.keeps fun place hplace entry hentry => ?_
  obtain rfl := List.mem_singleton.1 hplace
  exact ⟨_, h.found, h.before entry hentry⟩

theorem Stores.isLinkFree (h : disk.Stores other p content) (htree : disk.tree.IsLinkFree) :
    other.tree.IsLinkFree := by
  refine h.toChangesOnly.isLinkFree htree fun place hplace => ?_
  obtain rfl := List.mem_singleton.1 hplace
  exact ⟨content, h.found⟩

/-- Something put at a place changes that place only. -/
theorem changesOnly_put (disk : Disk) (place : Place) (entry : FileEntry) :
    disk.ChangesOnly (disk.put place entry) [place] := by
  refine ⟨rfl, fun q hq => .inl (find?_insert_of_ne ?_ entry)⟩
  simpa using hq

/-- Something is at a path exactly when the path leads to it. -/
theorem isOk_status_iff (htree : disk.tree.IsLinkFree) :
    (disk.status p).isOk = true ↔
      p.IsUsable ∧ ∃ place entry,
        disk.tree.Leads .look (disk.startOf p) p.segments (.present place entry) := by
  constructor
  · intro hstatus
    cases hresolve : disk.resolve .look p with
    | error e => simp [status, hresolve, Except.isOk, Except.toBool] at hstatus
    | ok target =>
      obtain ⟨husable, hleads⟩ := (resolve_eq_ok_iff htree).1 hresolve
      cases target with
      | present place entry => exact ⟨husable, place, entry, hleads⟩
      | free place => simp [status, hresolve, Except.isOk, Except.toBool] at hstatus
  · intro hleads
    obtain ⟨husable, place, entry, hleads⟩ := hleads
    have hresolve := (resolve_eq_ok_iff htree).2 ⟨husable, hleads⟩
    cases entry <;> simp [status, hresolve, Except.isOk, Except.toBool]

theorem Keeps.isOk_status (h : disk.Keeps other) (htree : disk.tree.IsLinkFree)
    (hother : other.tree.IsLinkFree) (hstatus : (disk.status p).isOk = true) :
    (other.status p).isOk = true := by
  obtain ⟨husable, place, entry, hleads⟩ := (isOk_status_iff htree).1 hstatus
  obtain ⟨kept, _, hkept⟩ := hleads.mono h.tree
  exact (isOk_status_iff hother).2 ⟨husable, place, kept, h.startOf_eq p ▸ hkept⟩

/-- Making a directory puts it at a place where nothing was, and the path leads to it. -/
theorem changesOnly_of_makeDirectory (htree : disk.tree.IsLinkFree)
    (h : disk.makeDirectory p = .ok other) :
    disk.ChangesOnly other [] ∧ (other.status p).isOk = true := by
  rw [makeDirectory] at h
  split at h
  · cases h
  · cases h
  · rename_i place hresolve
    obtain ⟨husable, hleads⟩ := (resolve_eq_ok_iff htree).1 hresolve
    obtain ⟨hne, hnone⟩ := hleads.has
    have hfound : (disk.put place .directory).tree.find? place = some .directory :=
      find?_insert_self hne _
    cases h
    have hadds : disk.ChangesOnly (disk.put place .directory) [] := by
      refine ⟨rfl, fun q _ => ?_⟩
      by_cases hq : q = place
      · subst hq
        exact .inr ⟨hnone, hfound⟩
      · exact .inl (find?_insert_of_ne hq _)
    have hmade := hleads.present_directory (fun _ => hadds.keeps_of_nil.tree.directory) hfound
    rw [← hadds.keeps_of_nil.startOf_eq] at hmade
    exact ⟨hadds, (isOk_status_iff (hadds.isLinkFree_of_nil htree)).2 ⟨husable, _, _, hmade⟩⟩

/-- A file is written to the place that the path leads to. -/
theorem exists_of_write (htree : disk.tree.IsLinkFree) (h : disk.write p text = .ok other) :
    p.IsUsable ∧ other = disk.put (disk.placeOf p) (.file text.toUTF8) ∧
      ∃ target, disk.tree.Leads .write (disk.startOf p) p.segments target ∧
        target.IsWritable ∧ target.place = disk.placeOf p := by
  have hwritten : ∀ target : Target, target.IsWritable → disk.resolve .write p = .ok target →
      disk.put target.place (.file text.toUTF8) = other →
      p.IsUsable ∧ other = disk.put (disk.placeOf p) (.file text.toUTF8) ∧
        ∃ target, disk.tree.Leads .write (disk.startOf p) p.segments target ∧
          target.IsWritable ∧ target.place = disk.placeOf p := by
    intro target htarget hresolve hput
    obtain ⟨husable, hleads⟩ := (resolve_eq_ok_iff htree).1 hresolve
    have hplace : target.place = disk.placeOf p := hleads.place_eq
    exact ⟨husable, hplace ▸ hput.symm, target, hleads, htarget, hplace⟩
  rw [write] at h
  split at h
  · cases h
  · rename_i place content hresolve
    exact hwritten (.present place (.file content)) trivial hresolve (Except.ok.inj h)
  · rename_i place hresolve
    exact hwritten (.free place) trivial hresolve (Except.ok.inj h)
  · cases h

/-- A file is read from the place that the path leads to. -/
theorem read_eq_ok_iff (htree : disk.tree.IsLinkFree) :
    disk.read p = .ok content ↔
      p.IsUsable ∧ disk.tree.Leads .look (disk.startOf p) p.segments
        (.present (disk.placeOf p) (.file content)) := by
  constructor
  · intro h
    rw [read] at h
    split at h
    · cases h
    · rename_i place found hresolve
      cases h
      obtain ⟨husable, hleads⟩ := (resolve_eq_ok_iff htree).1 hresolve
      have hplace : place = disk.placeOf p := hleads.place_eq
      exact ⟨husable, hplace ▸ hleads⟩
    · cases h
    · cases h
  · intro h
    rw [read, (resolve_eq_ok_iff htree).2 h]

theorem find?_of_read (htree : disk.tree.IsLinkFree) (h : disk.read p = .ok content) :
    disk.tree.find? (disk.placeOf p) = some (.file content) :=
  ((read_eq_ok_iff htree).1 h).2.has.2

/-- A file that could be read can be read later, with the content that it then has. -/
theorem Keeps.read (h : disk.Keeps other) (htree : disk.tree.IsLinkFree)
    (hother : other.tree.IsLinkFree) (hread : disk.read p = .ok content) {content' : ByteArray}
    (hfind : other.tree.find? (disk.placeOf p) = some (.file content')) :
    other.read p = .ok content' := by
  obtain ⟨husable, hleads⟩ := (read_eq_ok_iff htree).1 hread
  obtain ⟨kept, hkind, hkept⟩ := hleads.mono h.tree
  obtain ⟨last, rfl⟩ := hkind.exists_file
  obtain rfl : last = content' := by
    simpa using hkept.has.2.symm.trans hfind
  rw [← h.startOf_eq, ← h.placeOf_eq] at hkept
  exact (read_eq_ok_iff hother).2 ⟨husable, hkept⟩

/-- Writing a file stores it, and the path leads to it. -/
theorem stores_of_write (htree : disk.tree.IsLinkFree) (h : disk.write p text = .ok other) :
    disk.Stores other p text.toUTF8 ∧
      other.tree.Leads .write (other.startOf p) p.segments
        (.present (disk.placeOf p) (.file text.toUTF8)) := by
  obtain ⟨husable, hput, target, hleads, htarget, hplace⟩ := exists_of_write htree h
  obtain ⟨hne, hkind⟩ := Has.sameKind hleads.has htarget text.toUTF8
  have hchanges : disk.ChangesOnly other [disk.placeOf p] := hput ▸ changesOnly_put disk _ _
  have hfound : other.tree.find? (disk.placeOf p) = some (.file text.toUTF8) := by
    rw [hput]
    exact find?_insert_self (hplace ▸ hne) _
  rw [hplace] at hkind
  have hkeeps : disk.Keeps other := hchanges.keeps fun place hmem entry hentry => by
    obtain rfl := List.mem_singleton.1 hmem
    exact ⟨_, hfound, hkind entry hentry⟩
  have hother : other.tree.IsLinkFree := hchanges.isLinkFree htree fun place hmem =>
    ⟨_, List.mem_singleton.1 hmem ▸ hfound⟩
  have hwritten := hleads.present_file (fun _ => hkeeps.tree.directory) htarget (hplace ▸ hfound)
  rw [hplace, ← hkeeps.startOf_eq] at hwritten
  refine ⟨⟨hchanges, hkind, hfound, (read_eq_ok_iff hother).2 ⟨husable, ?_⟩⟩, hwritten⟩
  rw [hkeeps.placeOf_eq]
  exact hwritten.look

/-- A file can be written to a path: the directory that it lies in is there, unless it has none,
and the path leads to a file or to a free place. -/
structure CanStore (disk : Disk) (p : Path) : Prop where
  usable : p.IsUsable
  target : ∃ target, disk.tree.Leads .write (disk.startOf p) p.segments target ∧
    target.IsWritable
  directory : ∀ directory, directoryOf? p = some directory →
    (disk.status directory).isOk = true ∨ directory.parent? = none

/-- A file can be stored where a path leads to a file or a free place, and the directory is
there. -/
theorem canStore_of_resolve (htree : disk.tree.IsLinkFree) {directory : Path}
    {target : Target} (hresolve : disk.resolve .write p = .ok target)
    (htarget : target.IsWritable) (hdirectory : directoryOf? p = some directory)
    (hstatus : disk.status directory = .ok .directory) : disk.CanStore p := by
  obtain ⟨husable, hleads⟩ := (resolve_eq_ok_iff htree).1 hresolve
  refine ⟨husable, ⟨target, hleads, htarget⟩, fun other hother => ?_⟩
  obtain rfl := Option.some.inj (hdirectory.symm.trans hother)
  exact .inl (by rw [hstatus]; rfl)

theorem CanStore.write (h : disk.CanStore p) (htree : disk.tree.IsLinkFree) (text : String) :
    disk.write p text = .ok (disk.put (disk.placeOf p) (.file text.toUTF8)) := by
  obtain ⟨target, hleads, htarget⟩ := h.target
  have hplace : target.place = disk.placeOf p := hleads.place_eq
  rw [Disk.write, (resolve_eq_ok_iff htree).2 ⟨h.usable, hleads⟩, ← hplace]
  match target with
  | .present _ (.file _) => rfl
  | .free _ => rfl

/-- A file can still be written after another one was. -/
theorem CanStore.put (h : disk.CanStore p) (htree : disk.tree.IsLinkFree) {q : Path}
    (hq : disk.CanStore q) (text : String) :
    (disk.put (disk.placeOf q) (.file text.toUTF8)).CanStore p := by
  have hstores := (stores_of_write htree (hq.write htree text)).1
  refine ⟨h.usable, ?_, fun directory hdirectory => (h.directory directory hdirectory).imp_left
    (hstores.keeps.isOk_status htree (hstores.isLinkFree htree))⟩
  obtain ⟨target, hleads, htarget⟩ := h.target
  exact hleads.writable_insert (fun hplace => (hstores.before _ hplace).elim) htarget

/-- A file that was written can be written over, whatever was stored in between. -/
theorem canStore_of_write (htree : disk.tree.IsLinkFree) (h : disk.write p text = .ok other)
    (hkeeps : other.Keeps third)
    (hdirectory : ∀ directory, directoryOf? p = some directory →
      (third.status directory).isOk = true ∨ directory.parent? = none) :
    third.CanStore p := by
  obtain ⟨husable, _⟩ := exists_of_write htree h
  obtain ⟨kept, hkind, hkept⟩ := (stores_of_write htree h).2.mono hkeeps.tree
  obtain ⟨content, rfl⟩ := hkind.exists_file
  rw [← hkeeps.startOf_eq] at hkept
  exact ⟨husable, ⟨_, hkept, trivial⟩, hdirectory⟩

end Disk

end ManifestAtlas
