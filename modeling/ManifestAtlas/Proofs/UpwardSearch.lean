import ManifestAtlas.Proofs.HeldFiles
import ManifestAtlas.Proofs.LongPaths
import ManifestAtlas.Workspace.Context

/-!
# The upward search

The search for a manifest looks at the working directory and at every directory
above it, from the inside out (`Path.components_ancestors`).

A directory in which the system finds no manifest is passed over
(`run_findManifestAmong_append`), and the first one in which it finds some
decides alone (`run_findManifestAmong_cons`): it gives its manifest, or is
refused if there are manifests of both names.

The system finds what a directory holds by a path that it takes
(`Disk.status_child_eq_file_iff`).  A manifest whose path is too long is not
found, and another one above it decides (`longPathSession_finds_above`).
-/

namespace ManifestAtlas

open FileTree

/-! ## Directories that hold a manifest -/

theorem isFileName_manifestName : IsFileName manifestName := by
  decide

theorem isFileName_manifestOtherName : IsFileName manifestOtherName := by
  decide

namespace Disk

variable {disk : Disk} {directory : Path}

/-- The system finds a file of a name in a directory. -/
def Finds (disk : Disk) (directory : Path) (name : String) : Prop :=
  disk.status (directory.child name) = .ok .file

instance (disk : Disk) (directory : Path) (name : String) :
    Decidable (disk.Finds directory name) :=
  inferInstanceAs (Decidable (_ = _))

/-- The system finds a manifest of one name or the other in a directory. -/
def FindsManifest (disk : Disk) (directory : Path) : Prop :=
  disk.Finds directory manifestName ∨ disk.Finds directory manifestOtherName

/-- A directory holds a manifest of one name or the other in reach. -/
def HoldsManifest (disk : Disk) (directory : Path) : Prop :=
  disk.HoldsInReach directory manifestName ∨ disk.HoldsInReach directory manifestOtherName

/-- A file is found just if it is held in reach. -/
theorem finds_iff {name : String} (htree : disk.tree.IsProper) (hname : IsFileName name)
    (habsolute : directory.isAbsolute = true) :
    disk.Finds directory name ↔ disk.HoldsInReach directory name :=
  status_child_eq_file_iff htree hname habsolute

theorem findsManifest_iff (htree : disk.tree.IsProper) (habsolute : directory.isAbsolute = true) :
    disk.FindsManifest directory ↔ disk.HoldsManifest directory :=
  or_congr (finds_iff htree isFileName_manifestName habsolute)
    (finds_iff htree isFileName_manifestOtherName habsolute)

end Disk

/-! ## Runs -/

section

variable {s : Session}

theorem run_isFile (p : Path) (s : Session) :
    (FileSystem.isFile p : StateM Session Bool).run s =
      (decide (s.disk.status p = .ok .file), s) := by
  have hstatus : (FileSystem.status p : StateM Session _).run s = (s.disk.status p, s) := rfl
  rw [FileSystem.isFile, Session.run_bind, hstatus]
  cases s.disk.status p with
  | error e => rfl
  | ok kind => cases kind <;> rfl

/-- One directory gives its manifest, unless it holds two of them or none. -/
theorem run_findManifestIn (directory : Path) (s : Session) :
    (findManifestIn directory : StateM Session _).run s =
      (if s.disk.Finds directory manifestName then
        if s.disk.Finds directory manifestOtherName then
          .error (.ambiguous (directory.child manifestName) (directory.child manifestOtherName))
        else .ok (directory.child manifestName)
      else if s.disk.Finds directory manifestOtherName then
        .ok (directory.child manifestOtherName)
      else .error (.notFound directory), s) := by
  rw [findManifestIn, Session.run_bind, run_isFile]
  dsimp only
  rw [Session.run_bind, run_isFile]
  have hfinds : ∀ name, decide (s.disk.status (directory.child name) = .ok .file) =
      decide (s.disk.Finds directory name) := fun _ => rfl
  rw [hfinds, hfinds]
  by_cases hfirst : s.disk.Finds directory manifestName
  · by_cases hsecond : s.disk.Finds directory manifestOtherName
    · rw [decide_eq_true hfirst, decide_eq_true hsecond, if_pos hfirst, if_pos hsecond]
      rfl
    · rw [decide_eq_true hfirst, decide_eq_false hsecond, if_pos hfirst, if_neg hsecond]
      rfl
  · by_cases hsecond : s.disk.Finds directory manifestOtherName
    · rw [decide_eq_false hfirst, decide_eq_true hsecond, if_neg hfirst, if_pos hsecond]
      rfl
    · rw [decide_eq_false hfirst, decide_eq_false hsecond, if_neg hfirst, if_neg hsecond]
      rfl

/-- A directory without a manifest is passed over. -/
theorem run_findManifestAmong_append {start : Path} {inner : List Path} (outer : List Path)
    (h : ∀ directory ∈ inner, ¬ s.disk.FindsManifest directory) :
    (findManifestAmong start (inner ++ outer) : StateM Session _).run s =
      (findManifestAmong start outer : StateM Session _).run s := by
  induction inner with
  | nil => rfl
  | cons directory inner ih =>
    obtain ⟨hdirectory, hinner⟩ := List.forall_mem_cons.1 h
    obtain ⟨hfirst, hsecond⟩ := not_or.1 hdirectory
    rw [List.cons_append, findManifestAmong, Session.run_bind, run_findManifestIn, if_neg hfirst,
      if_neg hsecond]
    exact ih hinner

/-- A directory with a manifest decides, whatever comes after it. -/
theorem run_findManifestAmong_cons {start directory : Path} (outer : List Path)
    (h : s.disk.FindsManifest directory) :
    (findManifestAmong start (directory :: outer) : StateM Session _).run s =
      (findManifestIn directory : StateM Session _).run s := by
  rw [findManifestAmong, Session.run_bind, run_findManifestIn]
  by_cases hfirst : s.disk.Finds directory manifestName
  · by_cases hsecond : s.disk.Finds directory manifestOtherName
    · simp only [if_pos hfirst, if_pos hsecond]
      rfl
    · simp only [if_pos hfirst, if_neg hsecond]
      rfl
  · simp only [if_neg hfirst, if_pos (h.resolve_left hfirst)]
    rfl

end

/-- For every proper tree and every absolute working directory, the search looks at the directories
that all beginnings of its path lead to, the longest first.  The first of them that holds a manifest
in reach decides: it gives its manifest, or is refused as ambiguous if it holds both.  If none does,
the search names the directory that it started from.  Nothing is changed. -/
theorem findManifest_finds_nearest {context : Context} {s : Session}
    (htree : s.disk.tree.IsProper) (h : context.workingDirectory.isAbsolute = true) :
    context.workingDirectory.ancestors.map Path.components =
      (List.range context.workingDirectory.components.length).map (fun i =>
        context.workingDirectory.components.take
          (context.workingDirectory.components.length - i)) ∧
    (∀ inner d outer, context.workingDirectory.ancestors = inner ++ d :: outer →
      (∀ below ∈ inner, ¬ s.disk.HoldsManifest below) →
      (s.disk.HoldsInReach d manifestName → ¬ s.disk.HoldsInReach d manifestOtherName →
        (context.findManifest : StateM Session _).run s = (.ok (d.child manifestName), s)) ∧
      (s.disk.HoldsInReach d manifestOtherName → ¬ s.disk.HoldsInReach d manifestName →
        (context.findManifest : StateM Session _).run s = (.ok (d.child manifestOtherName), s)) ∧
      (s.disk.HoldsInReach d manifestName → s.disk.HoldsInReach d manifestOtherName →
        (context.findManifest : StateM Session _).run s =
          (.error (.ambiguous (d.child manifestName) (d.child manifestOtherName)), s))) ∧
    ((∀ d ∈ context.workingDirectory.ancestors, ¬ s.disk.HoldsManifest d) →
      (context.findManifest : StateM Session _).run s =
        (.error (.notFound context.workingDirectory), s)) := by
  have habsolute := Path.isAbsolute_of_mem_ancestors h
  refine ⟨Path.components_ancestors h, fun inner d outer hancestors hinner => ?_, fun hnone => ?_⟩
  · rw [hancestors, List.forall_mem_append, List.forall_mem_cons] at habsolute
    obtain ⟨hbelow, hd, -⟩ := habsolute
    have hpassed : ∀ below ∈ inner, ¬ s.disk.FindsManifest below := fun below hmem =>
      (Disk.findsManifest_iff htree (hbelow below hmem)).not.2 (hinner below hmem)
    have hrun (hdecides : s.disk.FindsManifest d) :
        (context.findManifest : StateM Session _).run s =
          (findManifestIn d : StateM Session _).run s := by
      rw [Context.findManifest, findManifestAbove, hancestors,
        run_findManifestAmong_append _ hpassed, run_findManifestAmong_cons _ hdecides]
    simp only [← Disk.finds_iff htree isFileName_manifestName hd,
      ← Disk.finds_iff htree isFileName_manifestOtherName hd]
    refine ⟨fun hfirst hsecond => ?_, fun hsecond hfirst => ?_, fun hfirst hsecond => ?_⟩
    · rw [hrun (.inl hfirst), run_findManifestIn, if_pos hfirst, if_neg hsecond]
    · rw [hrun (.inr hsecond), run_findManifestIn, if_neg hfirst, if_pos hsecond]
    · rw [hrun (.inl hfirst), run_findManifestIn, if_pos hfirst, if_pos hsecond]
  · have hpassed : ∀ d ∈ context.workingDirectory.ancestors, ¬ s.disk.FindsManifest d :=
      fun d hd => (Disk.findsManifest_iff htree (habsolute d hd)).not.2 (hnone d hd)
    rw [Context.findManifest, findManifestAbove,
      ← List.append_nil context.workingDirectory.ancestors,
      run_findManifestAmong_append [] hpassed]
    rfl

/-- A run in a project that holds a manifest, below a directory that holds two. -/
def nestedSession : Session :=
  .start ⟨⟨[(["logic-manifest.json"], .file ByteArray.empty),
    (["manifest.json"], .file ByteArray.empty), (["shop"], .directory),
    (["shop", "manifest.json"], .file ByteArray.empty), (["shop", "src"], .directory)]⟩, []⟩

theorem nestedSession_isProper : nestedSession.disk.tree.IsProper := by
  refine ⟨by decide +kernel, by decide +kernel, by decide +kernel, ?_⟩
  simp [nestedSession, Session.start, find?]

/-- The nearest manifest is found; the two above it do not matter. -/
theorem nestedSession_finds_nearest :
    nestedSession.disk.tree.IsProper ∧ Path.isAbsolute ⟨"/shop/src"⟩ = true ∧
    (Context.findManifest ⟨⟨"/shop/src"⟩, true, .default⟩ : StateM Session _).run nestedSession =
      (.ok ⟨"/shop/manifest.json"⟩, nestedSession) := by
  have htree := nestedSession_isProper
  have hstatus : nestedSession.disk.status ⟨"/shop/manifest.json"⟩ = .ok .file ∧
      nestedSession.disk.status ⟨"/shop/logic-manifest.json"⟩ = .error .noEntry ∧
      nestedSession.disk.status ⟨"/shop/src/manifest.json"⟩ = .error .noEntry ∧
      nestedSession.disk.status ⟨"/shop/src/logic-manifest.json"⟩ = .error .noEntry := by
    simp +decide [Disk.status, Disk.resolve, Path.segments, splitSlashes, FileTree.follow,
      FileTree.find?, nestedSession, Session.start]
  obtain ⟨hshop, hshopFirst, hsrc, hsrcFirst⟩ := hstatus
  have hchild : Path.child ⟨"/shop"⟩ manifestOtherName = ⟨"/shop/manifest.json"⟩ ∧
      Path.child ⟨"/shop"⟩ manifestName = ⟨"/shop/logic-manifest.json"⟩ ∧
      Path.child ⟨"/shop/src"⟩ manifestOtherName = ⟨"/shop/src/manifest.json"⟩ ∧
      Path.child ⟨"/shop/src"⟩ manifestName = ⟨"/shop/src/logic-manifest.json"⟩ := by
    decide +kernel
  refine ⟨htree, by decide, ?_⟩
  obtain ⟨-, hnearest, -⟩ := @findManifest_finds_nearest ⟨⟨"/shop/src"⟩, true, .default⟩
    nestedSession htree (by decide)
  have hancestors : Path.ancestors ⟨"/shop/src"⟩ = [⟨"/shop/src"⟩] ++ ⟨"/shop"⟩ :: [⟨"/"⟩] := by
    decide +kernel
  have hnone : ¬ nestedSession.disk.HoldsManifest ⟨"/shop/src"⟩ := by
    rw [← Disk.findsManifest_iff htree (by decide)]
    simp [Disk.FindsManifest, Disk.Finds, hchild, hsrc, hsrcFirst]
  have hother : nestedSession.disk.HoldsInReach ⟨"/shop"⟩ manifestOtherName := by
    rw [← Disk.finds_iff htree isFileName_manifestOtherName (by decide), Disk.Finds, hchild.1,
      hshop]
  have hfirst : ¬ nestedSession.disk.HoldsInReach ⟨"/shop"⟩ manifestName := by
    rw [← Disk.finds_iff htree isFileName_manifestName (by decide)]
    simp [Disk.Finds, hchild, hshopFirst]
  obtain ⟨-, hfound, -⟩ := hnearest _ _ _ hancestors (List.forall_mem_singleton.2 hnone)
  rw [hfound hother hfirst, hchild.1]

/-! ## A manifest that is out of reach -/

/-- A directory with a long name below the root, spelled with many slashes. -/
def longPath : Path :=
  (Path.slashes 3878).child longName

/-- A run in a directory that holds a manifest, below the root, which holds another one. -/
def longPathSession : Session :=
  .start ⟨⟨[([longName], .directory), ([longName, manifestName], .file ByteArray.empty),
    ([manifestOtherName], .file ByteArray.empty)]⟩, []⟩

theorem longPathSession_isProper : longPathSession.disk.tree.IsProper := by
  have hne : longName ≠ manifestOtherName := longName_ne (by decide)
  refine ⟨?_, ?_, ?_, ?_⟩
  · simp [longPathSession, Session.start, hne]
  · simp [longPathSession, Session.start]
  · simp [longPathSession, Session.start, isFileName_longName, isFileName_manifestName,
      isFileName_manifestOtherName]
  · simp [longPathSession, Session.start, find?]

theorem isAbsolute_longPath : longPath.isAbsolute = true := by
  rw [longPath, Path.isAbsolute_child isFileName_longName (Path.slashes_ne_empty _),
    Path.isAbsolute_slashes]

theorem resolve_longPath :
    longPathSession.disk.resolve .look longPath = .ok (.present [longName] .directory) := by
  have hroot := Disk.resolve_slashes (by decide : 3878 < maxPathBytes) longPathSession.disk
  have hfind : longPathSession.disk.tree.find? ([] ++ [longName]) = some .directory := by
    simp [longPathSession, Session.start, find?]
  have hsize : longPath.text.utf8ByteSize ≤ maxPathBytes := by
    have hle := Path.utf8ByteSize_child_le isFileName_longName (.slashes 3878)
    rw [Path.utf8ByteSize_slashes, utf8ByteSize_longName] at hle
    exact Nat.le_trans hle (by decide)
  rw [longPath, Disk.resolve_child isFileName_longName hroot hsize
    fun target => by rw [hfind]; simp, hfind]
  rfl

theorem not_isOpenable_longPath_child : ¬ (longPath.child manifestName).IsOpenable := by
  have hdirectory := Path.utf8ByteSize_add_le_child isFileName_longName (.slashes 3878)
  have hsize := Path.utf8ByteSize_add_le_child isFileName_manifestName longPath
  have hbytes : manifestName.utf8ByteSize = 19 := by decide
  rw [Path.utf8ByteSize_slashes, utf8ByteSize_longName] at hdirectory
  rw [longPath, hbytes] at hsize
  rw [longPath, Path.IsOpenable, maxPathBytes]
  omega

/-- At the root, there is one manifest. -/
theorem longPathSession_finds_at_root :
    ¬ longPathSession.disk.Finds ⟨"/"⟩ manifestName ∧
      longPathSession.disk.Finds ⟨"/"⟩ manifestOtherName := by
  have hroot := Disk.resolve_slashes (by decide : 0 < maxPathBytes) longPathSession.disk
  have hslash : Path.slashes 0 = ⟨"/"⟩ := by decide
  rw [hslash] at hroot
  have hfirst : longPathSession.disk.tree.find? ([] ++ [manifestName]) = none := by
    have hne : longName ≠ "logic-manifest.json" := longName_ne (by decide)
    simp [longPathSession, Session.start, find?, hne, manifestName, manifestOtherName]
  have hother : longPathSession.disk.tree.find? ([] ++ [manifestOtherName]) =
      some (.file ByteArray.empty) := by
    have hne : longName ≠ manifestOtherName := longName_ne (by decide)
    simp [longPathSession, Session.start, find?, hne]
  rw [Disk.Finds, Disk.Finds, Disk.status, Disk.status,
    Disk.resolve_child isFileName_manifestName hroot (by decide)
      fun target => by rw [hfirst]; simp,
    Disk.resolve_child isFileName_manifestOtherName hroot (by decide)
      fun target => by rw [hother]; simp, hfirst, hother]
  simp

/-- The working directory exists and holds one manifest, but the path of that manifest is longer
than the system takes: the search goes on and gives the manifest of the root. -/
theorem longPathSession_finds_above :
    longPathSession.disk.tree.IsProper ∧ longPath.isAbsolute = true ∧
      longPathSession.disk.status longPath = .ok .directory ∧
      longPathSession.disk.HoldsFile longPath manifestName ∧
      ¬ longPathSession.disk.HoldsFile longPath manifestOtherName ∧
      (Context.findManifest ⟨longPath, true, .default⟩ : StateM Session _).run longPathSession =
        (.ok ⟨"/manifest.json"⟩, longPathSession) := by
  have htree := longPathSession_isProper
  have hplace := resolve_longPath
  have hstatus : longPathSession.disk.status longPath = .ok .directory := by
    rw [Disk.status, hplace]
  have hholds : longPathSession.disk.HoldsFile longPath manifestName := by
    rw [Disk.resolve_of_isUsable (Disk.isUsable_of_resolve hplace)] at hplace
    refine ⟨[longName], hplace, .inl ⟨ByteArray.empty, ?_⟩⟩
    exact (htree.find?_eq_some_iff (by simp)).2 (by simp [longPathSession, Session.start])
  have hother : ¬ longPathSession.disk.HoldsFile longPath manifestOtherName := by
    rw [Disk.resolve_of_isUsable (Disk.isUsable_of_resolve hplace)] at hplace
    have hnone : longPathSession.disk.tree.find? [longName, manifestOtherName] = none := by
      simp [longPathSession, Session.start, find?, manifestName, manifestOtherName]
    rintro ⟨place, hfollow, hentry⟩
    obtain ⟨rfl, -⟩ := Target.present.inj (Except.ok.inj (hplace.symm.trans hfollow))
    simp [hnone] at hentry
  have hpassed : ¬ longPathSession.disk.FindsManifest longPath := by
    rw [Disk.findsManifest_iff htree isAbsolute_longPath]
    exact not_or.2 ⟨fun h => not_isOpenable_longPath_child h.2, fun h => hother h.1⟩
  refine ⟨htree, isAbsolute_longPath, hstatus, hholds, hother, ?_⟩
  have hancestors := Path.ancestors_slashes_child isFileName_longName 3878
  have hchild : Path.child ⟨"/"⟩ manifestOtherName = ⟨"/manifest.json"⟩ := by
    decide +kernel
  obtain ⟨hfirst, hsecond⟩ := longPathSession_finds_at_root
  have hsplit : longPath.ancestors = [longPath] ++ ⟨"/"⟩ :: [] := hancestors
  rw [Context.findManifest, findManifestAbove, hsplit,
    run_findManifestAmong_append _ (List.forall_mem_singleton.2 hpassed),
    run_findManifestAmong_cons _ (.inr hsecond), run_findManifestIn, if_neg hfirst,
    if_pos hsecond, hchild]

end ManifestAtlas
