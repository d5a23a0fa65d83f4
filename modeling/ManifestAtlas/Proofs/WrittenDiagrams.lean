import ManifestAtlas.Proofs.CleanLint
import ManifestAtlas.Proofs.RenderedPaths
import ManifestAtlas.Proofs.WrittenFiles

/-!
# Written diagrams

Diagrams are written one after the other.  Two inductions follow the list: what
a run that succeeds leaves behind (`writeAll_spec`), and that a run succeeds
where each file can be stored (`exists_run_writeAll`).

An earlier diagram is safe from a later one because their places differ.  A
diagram's place is that of the output directory with the names of its file
behind it (`placeOf_pathIn`), and no two diagrams of a manifest have the same
names.  The main statement is `writeAll_renderAll`.
-/

namespace ManifestAtlas

/-! ## Diagrams -/

/-- The path that a diagram is written to. -/
def RenderedDiagram.pathIn (outDir : Path) (diagram : RenderedDiagram) : Path :=
  outDir.join ⟨diagram.file.path⟩

namespace Session

variable {s s' : Session} {outDir : Path} {diagrams : List RenderedDiagram} {paths : List Path}

/-- The session after a diagram was written to a path, with its line of the log. -/
def loggingWrite (u : Session) (path : Path) : Session :=
  { u with events := u.events ++ [.log .debug s!"wrote {path.text}"] }

@[simp]
theorem loggingWrite_disk (u : Session) (path : Path) : (u.loggingWrite path).disk = u.disk := rfl

/-- The first diagram is written, and then the others. -/
theorem run_writeAll_cons (outDir : Path) (diagram : RenderedDiagram)
    (diagrams : List RenderedDiagram) (s : Session) :
    (writeAll outDir (diagram :: diagrams) : StateM Session _).run s =
      match (writeFile (diagram.pathIn outDir) diagram.content : StateM Session _).run s with
      | (.error problem, u) => (.error problem, u)
      | (.ok (), u) =>
        match (writeAll outDir diagrams : StateM Session _).run
            (u.loggingWrite (diagram.pathIn outDir)) with
        | (.error problem, v) => (.error problem, v)
        | (.ok paths, v) => (.ok (diagram.pathIn outDir :: paths), v) := by
  rw [writeAll, run_bind, RenderedDiagram.pathIn]
  cases (writeFile (outDir.join ⟨diagram.file.path⟩) diagram.content : StateM Session _).run s with
  | mk written u =>
  cases written with
  | error problem => rfl
  | ok =>
    dsimp only
    rw [run_bind, run_bind]
    have hlog : ((Console.log .debug s!"wrote {(outDir.join ⟨diagram.file.path⟩).text}" :
        StateM Session Unit).run u).2 = u.loggingWrite (outDir.join ⟨diagram.file.path⟩) := rfl
    rw [hlog]
    cases (writeAll outDir diagrams : StateM Session _).run
      (u.loggingWrite (outDir.join ⟨diagram.file.path⟩)) with
    | mk rest v => cases rest <;> rfl

theorem exists_of_writeAll_cons {diagram : RenderedDiagram}
    (h : (writeAll outDir (diagram :: diagrams) : StateM Session _).run s = (.ok paths, s')) :
    ∃ u more,
      (writeFile (diagram.pathIn outDir) diagram.content : StateM Session _).run s = (.ok (), u) ∧
      (writeAll outDir diagrams : StateM Session _).run (u.loggingWrite (diagram.pathIn outDir)) =
        (.ok more, s') ∧
      paths = diagram.pathIn outDir :: more := by
  rw [run_writeAll_cons] at h
  split at h
  · cases h
  · rename_i u hwrite
    split at h
    · cases h
    · rename_i more v hrest
      cases h
      exact ⟨u, more, hwrite, hrest, rfl⟩

end Session

/-- The places that diagrams are written to, when no link is on the way. -/
def Disk.placesOf (disk : Disk) (outDir : Path) (diagrams : List RenderedDiagram) : List Place :=
  diagrams.map fun diagram => disk.placeOf (diagram.pathIn outDir)

/-- A disk is another one after diagrams were written: each is in its file, where it can be
written again, and nothing else is different. -/
structure Disk.StoresAll (disk other : Disk) (outDir : Path) (diagrams : List RenderedDiagram) :
    Prop extends disk.ChangesOnly other (disk.placesOf outDir diagrams), disk.Keeps other where
  linkFree : other.tree.IsLinkFree
  contents : (disk.placesOf outDir diagrams).Nodup → ∀ diagram ∈ diagrams,
    other.tree.find? (disk.placeOf (diagram.pathIn outDir)) =
        some (.file diagram.content.toUTF8) ∧
      other.read (diagram.pathIn outDir) = .ok diagram.content.toUTF8
  again : ∀ diagram ∈ diagrams, other.CanStore (diagram.pathIn outDir)

theorem Disk.Keeps.placesOf_eq {disk other : Disk} (h : disk.Keeps other) (outDir : Path)
    (diagrams : List RenderedDiagram) :
    other.placesOf outDir diagrams = disk.placesOf outDir diagrams :=
  List.map_congr_left fun _ _ => h.placeOf_eq _

/-- A later file does not touch an earlier one at another place. -/
theorem Disk.Stores.storesAll_cons {disk other third : Disk} {outDir : Path}
    {diagram : RenderedDiagram} {diagrams : List RenderedDiagram}
    (htree : disk.tree.IsLinkFree)
    (h : disk.Stores other (diagram.pathIn outDir) diagram.content.toUTF8)
    (hagain : third.CanStore (diagram.pathIn outDir))
    (h' : other.StoresAll third outDir diagrams) :
    disk.StoresAll third outDir (diagram :: diagrams) := by
  have hplaces := h.keeps.placesOf_eq outDir diagrams
  have hchanges := h.toChangesOnly.trans h'.toChangesOnly
  rw [hplaces] at hchanges
  refine ⟨hchanges, (h.keeps.trans h'.toKeeps).tree, h'.linkFree, fun hnodup => ?_,
    List.forall_mem_cons.2 ⟨hagain, h'.again⟩⟩
  have hcons : disk.placesOf outDir (diagram :: diagrams) =
      disk.placeOf (diagram.pathIn outDir) :: other.placesOf outDir diagrams := by
    rw [hplaces]
    rfl
  rw [hcons] at hnodup
  obtain ⟨hfresh, hnodup⟩ := List.nodup_cons.1 hnodup
  rw [List.forall_mem_cons]
  constructor
  · have hfound : third.tree.find? (disk.placeOf (diagram.pathIn outDir)) =
        some (.file diagram.content.toUTF8) := by
      rcases h'.elsewhere _ hfresh with hsame | ⟨hnone, _⟩
      · rw [hsame, h.found]
      · rw [h.found] at hnone
        cases hnone
    refine ⟨hfound, h'.toKeeps.read (h.isLinkFree htree) h'.linkFree h.read ?_⟩
    rw [h.keeps.placeOf_eq, hfound]
  · intro later hlater
    rw [← h.keeps.placeOf_eq]
    exact h'.contents hnodup later hlater

namespace Session

variable {s s' : Session} {outDir : Path} {diagrams : List RenderedDiagram} {paths : List Path}

theorem writeAll_spec (hs : s.disk.tree.IsLinkFree)
    (h : (writeAll outDir diagrams : StateM Session _).run s = (.ok paths, s')) :
    paths = diagrams.map (RenderedDiagram.pathIn outDir) ∧
      s.disk.StoresAll s'.disk outDir diagrams := by
  induction diagrams generalizing s paths with
  | nil =>
    cases h
    exact ⟨rfl, ⟨.refl _, .refl _, hs, fun _ => List.forall_mem_nil _, List.forall_mem_nil _⟩⟩
  | cons diagram diagrams ih =>
    obtain ⟨u, more, hwrite, hrest, rfl⟩ := exists_of_writeAll_cons h
    obtain ⟨hstores, hagain⟩ := writeFile_spec hs hwrite
    have hu : (u.loggingWrite (diagram.pathIn outDir)).disk.tree.IsLinkFree :=
      hstores.isLinkFree hs
    obtain ⟨rfl, hall⟩ := ih hu hrest
    exact ⟨rfl, hstores.storesAll_cons hs (hagain _ hall.linkFree hall.toKeeps) hall⟩

/-- Diagrams are written where each of their files can be, and then only these change. -/
theorem exists_run_writeAll (hs : s.disk.tree.IsLinkFree)
    (h : ∀ diagram ∈ diagrams, s.disk.CanStore (diagram.pathIn outDir)) :
    ∃ s', (writeAll outDir diagrams : StateM Session _).run s =
        (.ok (diagrams.map (RenderedDiagram.pathIn outDir)), s') ∧
      ∀ place, place ∉ s.disk.placesOf outDir diagrams →
        s'.disk.tree.find? place = s.disk.tree.find? place := by
  induction diagrams generalizing s with
  | nil => exact ⟨s, rfl, fun _ _ => rfl⟩
  | cons diagram diagrams ih =>
    obtain ⟨hfirst, hrest⟩ := List.forall_mem_cons.1 h
    obtain ⟨u, hwrite, hu⟩ := run_writeFile_of_canStore hs hfirst diagram.content
    obtain ⟨hstores, _⟩ := writeFile_spec hs hwrite
    have hfree : (u.loggingWrite (diagram.pathIn outDir)).disk.tree.IsLinkFree :=
      hstores.isLinkFree hs
    -- The first diagram leaves room for the later ones.
    have hlater : ∀ later ∈ diagrams,
        (u.loggingWrite (diagram.pathIn outDir)).disk.CanStore (later.pathIn outDir) := by
      intro later hmem
      rw [loggingWrite_disk, hu]
      exact (hrest later hmem).put hs hfirst diagram.content
    obtain ⟨s', hs', hsame⟩ := ih hfree hlater
    refine ⟨s', ?_, fun place hplace => ?_⟩
    · rw [run_writeAll_cons, hwrite]
      dsimp only
      rw [hs']
      rfl
    · have hcons : s.disk.placesOf outDir (diagram :: diagrams) =
          s.disk.placeOf (diagram.pathIn outDir) :: s.disk.placesOf outDir diagrams := rfl
      rw [hcons, List.mem_cons, not_or] at hplace
      rw [hsame place, loggingWrite_disk, hu]
      · exact FileTree.find?_insert_of_ne hplace.1 _
      · rw [loggingWrite_disk, hstores.keeps.placesOf_eq]
        exact hplace.2

end Session

/-! ## The diagrams of a manifest -/

namespace FileTree

theorem lexicalPlace_of_plain {names : List String} (h : ∀ name ∈ names, IsPlainName name)
    (place : Place) : lexicalPlace place names = place ++ names := by
  induction names generalizing place with
  | nil => rw [lexicalPlace, List.append_nil]
  | cons name rest ih =>
    obtain ⟨hname, hrest⟩ := List.forall_mem_cons.1 h
    rw [lexicalPlace, if_neg (by simp [isIdle, hname.ne_empty, hname.ne_here]),
      if_neg hname.ne_up, ih hrest, List.append_assoc, List.singleton_append]

end FileTree

/-- A diagram is written to the place that its names lead to from the output directory. -/
theorem RenderedDiagram.placeOf_pathIn {diagram : RenderedDiagram} (h : diagram.file.IsBare)
    (disk : Disk) (outDir : Path) :
    disk.placeOf (diagram.pathIn outDir) = disk.placeOf outDir ++ diagram.file.names := by
  have hplain := h.isPlainName
  rw [pathIn, DiagramFile.path_eq,
    disk.placeOf_join outDir (isAbsolute_of_plain diagram.file.names_ne_nil hplain),
    segments_of_plain diagram.file.names_ne_nil hplain, FileTree.lexicalPlace_of_plain hplain]

/-- No two diagrams of a manifest are written to one place. -/
theorem nodup_placesOf_renderAll (manifest : Manifest) (disk : Disk) (outDir : Path) :
    (disk.placesOf outDir (renderAll manifest)).Nodup := by
  have hpaths : (disk.placesOf outDir (renderAll manifest)).map
      (fun place => "/".intercalate (place.drop (disk.placeOf outDir).length)) =
        outputPaths manifest := by
    rw [Disk.placesOf, List.map_map, outputPaths]
    refine List.map_congr_left fun diagram hdiagram => ?_
    rw [Function.comp_apply,
      RenderedDiagram.placeOf_pathIn (isBare_of_mem_renderAll manifest hdiagram),
      List.drop_left, DiagramFile.path_eq]
  apply List.Nodup.of_map
  rw [hpaths, outputPaths_eq]
  exact (DiagramFile.nodup_assignPaths [] _).1

/-- The names of the files that the program reads. -/
def inputNames : List String :=
  [manifestName, manifestOtherName, "config.toml"]

/-- The name of a diagram ends otherwise than those of the files that the program reads. -/
theorem DiagramFile.name_notMem_inputNames (file : DiagramFile) :
    file.stem ++ "." ++ file.kind.extension ∉ inputNames := by
  have hlast : (file.stem ++ "." ++ file.kind.extension).toList.getLast? = some 'd' := by
    rcases extension_toList file.kind with h | h <;> simp [h]
  intro hmem
  have hother : ∀ name ∈ inputNames, name.toList.getLast? ≠ some 'd' := by decide
  exact hother _ hmem hlast

/-- Writing the diagrams of a manifest loses nothing.  Each diagram is in a file of its own, at
the output directory joined with its path; every other place is as before, or has a new directory
where there was nothing; and what could be read elsewhere can still be read.  No file that the
program reads is written.  Writing the diagrams again succeeds and leaves the same tree. -/
theorem writeAll_renderAll {s s' : Session} (manifest : Manifest) (outDir : Path)
    (hlinks : s.disk.tree.IsLinkFree) {paths : List Path}
    (h : (writeAll outDir (renderAll manifest) : StateM Session _).run s = (.ok paths, s')) :
    paths = (renderAll manifest).map (fun diagram => outDir.join ⟨diagram.file.path⟩) ∧
    (∀ diagram ∈ renderAll manifest,
      s'.disk.read (outDir.join ⟨diagram.file.path⟩) = .ok diagram.content.toUTF8) ∧
    s.disk.ChangesOnly s'.disk (paths.map s.disk.placeOf) ∧
    s.disk.Keeps s'.disk ∧
    (∀ path content, s.disk.placeOf path ∉ paths.map s.disk.placeOf →
      s.disk.read path = .ok content → s'.disk.read path = .ok content) ∧
    (∀ path ∈ paths, ∀ name ∈ inputNames, (s.disk.placeOf path).getLast? ≠ some name) ∧
    ∃ s'', (writeAll outDir (renderAll manifest) : StateM Session _).run s' = (.ok paths, s'') ∧
      s''.disk.workingDirectory = s'.disk.workingDirectory ∧
      ∀ place, s''.disk.tree.find? place = s'.disk.tree.find? place := by
  obtain ⟨rfl, hall⟩ := Session.writeAll_spec hlinks h
  have hplaces : ((renderAll manifest).map (RenderedDiagram.pathIn outDir)).map s.disk.placeOf =
      s.disk.placesOf outDir (renderAll manifest) := List.map_map
  have hnodup := nodup_placesOf_renderAll manifest s.disk outDir
  rw [hplaces]
  refine ⟨rfl, fun diagram hdiagram => (hall.contents hnodup diagram hdiagram).2,
    hall.toChangesOnly, hall.toKeeps, ?_, ?_, ?_⟩
  · intro path content hpath hread
    refine hall.toKeeps.read hlinks hall.linkFree hread ?_
    have hfind := Disk.find?_of_read hlinks hread
    rcases hall.elsewhere _ hpath with hsame | ⟨hnone, _⟩
    · rw [hsame, hfind]
    · rw [hfind] at hnone
      cases hnone
  · intro path hpath name hname hlast
    obtain ⟨diagram, hdiagram, rfl⟩ := List.mem_map.1 hpath
    rw [RenderedDiagram.placeOf_pathIn (isBare_of_mem_renderAll manifest hdiagram),
      DiagramFile.names, ← List.append_assoc, List.getLast?_concat] at hlast
    obtain rfl := Option.some.inj hlast
    exact diagram.file.name_notMem_inputNames hname
  · obtain ⟨s'', hagain, hsame⟩ := Session.exists_run_writeAll hall.linkFree hall.again
    obtain ⟨-, hall'⟩ := Session.writeAll_spec hall.linkFree hagain
    refine ⟨s'', hagain, hall'.toChangesOnly.workingDirectory, fun place => ?_⟩
    by_cases hplace : place ∈ s'.disk.placesOf outDir (renderAll manifest)
    · obtain ⟨diagram, hdiagram, rfl⟩ := List.mem_map.1 hplace
      have hnodup' := nodup_placesOf_renderAll manifest s'.disk outDir
      rw [(hall'.contents hnodup' diagram hdiagram).1, hall.toKeeps.placeOf_eq,
        (hall.contents hnodup diagram hdiagram).1]
    · exact hsame place hplace

/-- Two flows whose identifiers give one name of a file. -/
def namesakeManifest : Manifest :=
  { orderManifest with modules := [{ orderModule with
      flows := ["pay/all", "pay all"].map fun id => ⟨id, "Pay", none, none, [], none⟩
      stateMachines := [] }] }

/-- A run in a project with notes, and with an old mindmap in its output directory. -/
def notedSession : Session :=
  .start ⟨⟨[(["shop"], .directory), (["shop", "notes.md"], .file .empty),
    (["shop", "out"], .directory), (["shop", "out", "mindmap.md"], .file .empty),
    (["shop", "out", "flows"], .directory), (["shop", "out", "flows", "order"], .directory)]⟩,
    ["shop"]⟩

theorem isLinkFree_notedSession : notedSession.disk.tree.IsLinkFree := by
  have hentries : ∀ e ∈ notedSession.disk.tree.entries, ∀ target, e.2 ≠ .link target := by
    simp [notedSession, Session.start]
  intro place target hlink
  rw [FileTree.find?] at hlink
  split at hlink
  · cases hlink
  · obtain ⟨e, he, hlink⟩ := Option.map_eq_some_iff.1 hlink
    exact hentries e (List.mem_of_find?_eq_some he) target hlink

theorem canStore_notedSession : ∀ diagram ∈ renderAll namesakeManifest,
    notedSession.disk.CanStore (diagram.pathIn ⟨"out"⟩) := by
  have hpaths : (renderAll namesakeManifest).map (RenderedDiagram.pathIn ⟨"out"⟩) =
      [⟨"out/dependencies.mmd"⟩, ⟨"out/mindmap.md"⟩, ⟨"out/flows/order/pay_all.mmd"⟩,
        ⟨"out/flows/order/pay_all-2.mmd"⟩] := by decide +kernel
  have hall : ∀ p ∈ (renderAll namesakeManifest).map (RenderedDiagram.pathIn ⟨"out"⟩),
      ∃ target directory, notedSession.disk.resolve .write p = .ok target ∧ target.IsWritable ∧
        directoryOf? p = some directory ∧ notedSession.disk.status directory = .ok .directory := by
    have hroot : directoryOf? ⟨"out/dependencies.mmd"⟩ = some ⟨"out"⟩ := by decide +kernel
    have hmindmap : directoryOf? ⟨"out/mindmap.md"⟩ = some ⟨"out"⟩ := by decide +kernel
    have hflow : directoryOf? ⟨"out/flows/order/pay_all.mmd"⟩ = some ⟨"out/flows/order"⟩ := by
      decide +kernel
    have hother : directoryOf? ⟨"out/flows/order/pay_all-2.mmd"⟩ = some ⟨"out/flows/order"⟩ := by
      decide +kernel
    simp +decide [hpaths, hroot, hmindmap, hflow, hother, Disk.status, Disk.resolve,
      Path.segments, splitSlashes, FileTree.follow, FileTree.find?, notedSession, Session.start,
      FileTree.Target.IsWritable]
  intro diagram hdiagram
  obtain ⟨target, directory, hresolve, htarget, hdirectory, hstatus⟩ :=
    hall _ (List.mem_map_of_mem hdiagram)
  exact Disk.canStore_of_resolve isLinkFree_notedSession hresolve htarget hdirectory hstatus

theorem namesakeManifest_written_beside_notes :
    ∃ paths s', (writeAll ⟨"out"⟩ (renderAll namesakeManifest) : StateM Session _).run
        notedSession = (.ok paths, s') ∧
      paths.length = 4 ∧
      s'.disk.read ⟨"notes.md"⟩ = .ok .empty ∧
      (∀ diagram ∈ renderAll namesakeManifest,
        s'.disk.read (diagram.pathIn ⟨"out"⟩) = .ok diagram.content.toUTF8) ∧
      ∃ s'', (writeAll ⟨"out"⟩ (renderAll namesakeManifest) : StateM Session _).run s' =
          (.ok paths, s'') ∧
        ∀ place, s''.disk.tree.find? place = s'.disk.tree.find? place := by
  obtain ⟨s', hrun, _⟩ := Session.exists_run_writeAll isLinkFree_notedSession canStore_notedSession
  obtain ⟨_, hcontents, _, _, hreads, _, s'', hagain, _, hsame⟩ :=
    writeAll_renderAll namesakeManifest ⟨"out"⟩ isLinkFree_notedSession hrun
  have hnotes : notedSession.disk.read ⟨"notes.md"⟩ = .ok .empty := by
    simp +decide [Disk.read, Disk.resolve, Path.segments, splitSlashes, FileTree.follow,
      FileTree.find?, notedSession, Session.start]
  have hplace : notedSession.disk.placeOf ⟨"notes.md"⟩ ∉ ((renderAll namesakeManifest).map
      (RenderedDiagram.pathIn ⟨"out"⟩)).map notedSession.disk.placeOf := by decide +kernel
  exact ⟨_, s', hrun, by decide +kernel, hreads _ _ hplace hnotes, hcontents, s'', hagain, hsame⟩

end ManifestAtlas
