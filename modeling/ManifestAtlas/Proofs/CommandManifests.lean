import ManifestAtlas.Proofs.FoundManifests
import ManifestAtlas.Proofs.ManifestResolution
import ManifestAtlas.Proofs.ManifestRoundTrip
import ManifestAtlas.Proofs.SessionViews
import ManifestAtlas.Proofs.UpwardSearch

/-!
# The manifest of a command

A command that works on a manifest locates it, reads it and decodes it, and each
of these can fail.  `Disk.commandManifest` says what comes of that: it is a
function of the file tree, of the command line and of the two directories that
the command is run with, and `run_loadManifest_contextOf` says that a command
loads just that.
-/

namespace ManifestAtlas

namespace Disk

/-- The manifest that the system finds in a directory, unless it finds two or none. -/
def manifestIn (disk : Disk) (directory : Path) : Except ManifestProblem Path :=
  if disk.Finds directory manifestName then
    if disk.Finds directory manifestOtherName then
      .error (.ambiguous (directory.child manifestName) (directory.child manifestOtherName))
    else .ok (directory.child manifestName)
  else if disk.Finds directory manifestOtherName then .ok (directory.child manifestOtherName)
  else .error (.notFound directory)

instance (disk : Disk) (directory : Path) : Decidable (disk.FindsManifest directory) :=
  inferInstanceAs (Decidable (_ ∨ _))

/-- The manifest of the first of some directories in which the system finds one. -/
def manifestAmong (disk : Disk) (start : Path) : List Path → Except ManifestProblem Path
  | [] => .error (.notFound start)
  | directory :: directories =>
    if disk.FindsManifest directory then disk.manifestIn directory
    else disk.manifestAmong start directories

/-- The path of the manifest that a command works on: the one that is named somewhere, or else that
of the nearest manifest. -/
def locatedManifest (disk : Disk) (home : Option Path) (directory : Path) (named : Option Path) :
    Except ManifestProblem Path :=
  match (disk.manifestSource home directory named).opened? directory with
  | some path => .ok path
  | none => disk.manifestAmong directory directory.ancestors

/-- The manifest that a command works on, with its path, if it can be located, read and decoded. -/
def commandManifest (disk : Disk) (home : Option Path) (directory : Path) (named : Option Path) :
    Except ManifestProblem (Path × Manifest) :=
  match disk.locatedManifest home directory named with
  | .error problem => .error problem
  | .ok path => (disk.loadedManifest path).map fun manifest => (path, manifest)

/-- The context of a command that is run in a directory. -/
def contextOf (disk : Disk) (home : Option Path) (directory : Path) (coloured : Bool) : Context :=
  ⟨directory, coloured, disk.mergedConfig (home.map Config.fileOf) directory⟩

end Disk

section

variable {s : Session}

theorem run_findManifestAmong (start : Path) (directories : List Path) :
    (findManifestAmong start directories : StateM Session _).run s =
      (s.disk.manifestAmong start directories, s) := by
  induction directories with
  | nil => rfl
  | cons directory directories ih =>
    by_cases h : s.disk.FindsManifest directory
    · rw [run_findManifestAmong_cons directories h, run_findManifestIn, Disk.manifestAmong,
        if_pos h]
      rfl
    · have hskip := @run_findManifestAmong_append s start [directory] directories
        (by simpa using h)
      rw [Disk.manifestAmong, if_neg h, ← ih]
      exact hskip

/-- A command finds its manifest where the file tree says. -/
theorem run_resolveManifest_contextOf (home : Option Path) (directory : Path) (coloured : Bool)
    (named : Option Path) :
    ((s.disk.contextOf home directory coloured).resolveManifest named : StateM Session _).run s =
      (s.disk.locatedManifest home directory named, s) := by
  have hresolve := run_resolveManifest s s home directory named
  rw [run_within] at hresolve
  refine Eq.trans ?_ (hresolve.trans ?_)
  · rfl
  · rw [Disk.locatedManifest]
    cases (s.disk.manifestSource home directory named).opened? directory with
    | some path => rfl
    | none => exact run_findManifestAmong directory directory.ancestors

/-- A command loads its manifest as it is on the disk. -/
theorem run_loadManifest_contextOf (home : Option Path) (directory : Path) (coloured : Bool)
    (named : Option Path) :
    (((s.disk.contextOf home directory coloured).loadManifest named : StateM Session _).run s).1 =
      s.disk.commandManifest home directory named := by
  rw [Context.loadManifest, Session.run_bind, run_resolveManifest_contextOf, Disk.commandManifest]
  cases s.disk.locatedManifest home directory named with
  | error problem => rfl
  | ok path =>
    dsimp only
    have hload := (run_loadManifest ((Console.log .debug s!"using manifest {path.text}" :
      StateM Session Unit).run s).2 path).1
    have hdisk : ((Console.log .debug s!"using manifest {path.text}" :
      StateM Session Unit).run s).2.disk = s.disk := rfl
    rw [Session.run_bind, Session.run_bind, hload, hdisk]
    cases s.disk.loadedManifest path <;> rfl

/-- A command goes on with its manifest, or is ended by what is wrong with it. -/
theorem run_attempt_loadManifest (home : Option Path) (directory : Path) (coloured : Bool)
    (named : Option Path) :
    ((CommandLine.attempt .manifest
      ((s.disk.contextOf home directory coloured).loadManifest named) :
        CommandLine.Action (StateM Session) _).run.run s).1 =
      (s.disk.commandManifest home directory named).mapError .manifest :=
  congrArg (Except.mapError Problem.manifest)
    (run_loadManifest_contextOf home directory coloured named)

end

/-! ## Stored manifests -/

/-- A manifest that is named on the command line and was written to its file is loaded again. -/
theorem Disk.commandManifest_of_read {disk : Disk} {directory p : Path} {manifest : Manifest}
    (h : disk.read (directory.join p) = .ok (Schema.manifest.codec.encode manifest).toUTF8)
    (home : Option Path) :
    disk.commandManifest home directory (some p) = .ok (directory.join p, manifest) := by
  have hlocated : disk.locatedManifest home directory (some p) = .ok (directory.join p) := rfl
  have hdecode : Manifest.decode (Schema.manifest.codec.encode manifest) = .ok manifest :=
    Manifest.decode_eq_ok_iff.2
      ((Json.RecordFormat.roundTrips Schema.faithful_manifest).decode_encode manifest)
  rw [commandManifest, hlocated]
  dsimp only
  rw [loadedManifest, h]
  dsimp only
  rw [fromUTF8?_toUTF8]
  dsimp only
  rw [hdecode]
  rfl

/-- A project with its manifest, and with an old diagram beside it. -/
def storedDisk (manifest : Manifest) : Disk :=
  ⟨⟨[(["shop"], .directory),
    (["shop", "manifest.json"], .file (Schema.manifest.codec.encode manifest).toUTF8),
    (["shop", "old.mmd"], .file "flowchart TD".toUTF8)]⟩, ["shop"]⟩

theorem commandManifest_storedDisk (manifest : Manifest) (home : Option Path) :
    (storedDisk manifest).commandManifest home ⟨"/shop"⟩ (some ⟨"manifest.json"⟩) =
      .ok (⟨"/shop/manifest.json"⟩, manifest) := by
  have hjoin : Path.join ⟨"/shop"⟩ ⟨"manifest.json"⟩ = ⟨"/shop/manifest.json"⟩ := by decide +kernel
  have hread : (storedDisk manifest).read ⟨"/shop/manifest.json"⟩ =
      .ok (Schema.manifest.codec.encode manifest).toUTF8 := by
    simp +decide [Disk.read, Disk.resolve, Path.segments, splitSlashes, FileTree.follow,
      FileTree.find?, storedDisk]
  rw [← hjoin] at hread ⊢
  exact Disk.commandManifest_of_read hread home

end ManifestAtlas
