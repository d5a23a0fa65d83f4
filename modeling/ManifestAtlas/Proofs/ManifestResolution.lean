import ManifestAtlas.Proofs.ConfigSettings
import ManifestAtlas.Proofs.JoinedPaths
import ManifestAtlas.Workspace.Context

/-!
# Which manifest a command works on

The manifest is named on the command line, by the project's configuration or by
the global one, or else it is searched for.  `Disk.manifestSource` says which of
these counts; it looks at the two configuration files and at nothing else.

`ManifestSource.path?` is the path that a source stands for, seen from the
directory of the file that names it, and `ManifestSource.opened?` is the path
that a command opens.  They are the same except for two kinds of relative paths
(`opened?_eq_path?_iff`): one of the global configuration, and one of a project
whose directory is itself given by a relative path.
-/

namespace ManifestAtlas

/-! ## Sources -/

/-- What names the manifest to work on, with the path as it is written there. -/
inductive ManifestSource where
  | named (p : Path)
  | project (p : Path)
  | global (p : Path)
  | search
  deriving DecidableEq, Repr

/-- What names the manifest: the command line, or else the project's configuration, or else the
global one. -/
def Disk.manifestSource (disk : Disk) (home : Option Path) (directory : Path)
    (named : Option Path) : ManifestSource :=
  match named with
  | some p => .named p
  | none =>
    match (disk.configAt (Config.fileOf directory)).manifest with
    | some p => .project p
    | none =>
      match home.bind fun base => (disk.configAt (Config.fileOf base)).manifest with
      | some p => .global p
      | none => .search

namespace ManifestSource

/-- The path of a manifest that is named somewhere: the working directory is where the command
line and the project's configuration are, and the home directory is where the global one is. -/
def path? (home : Option Path) (directory : Path) : ManifestSource → Option Path
  | .named p => some (directory.join p)
  | .project p => some (directory.join p)
  | .global p => home.map fun base => base.join p
  | .search => none

/-- The path that a command opens: every path is seen from the working directory, and that of a
project once more. -/
def opened? (directory : Path) : ManifestSource → Option Path
  | .named p => some (directory.join p)
  | .project p => some (directory.join (directory.join p))
  | .global p => some (directory.join p)
  | .search => none

/-- A command opens another path than the one that is meant. -/
def IsMisplaced (home : Option Path) (directory : Path) : ManifestSource → Prop
  | .named _ => False
  | .project p => p.isAbsolute = false ∧ directory.isAbsolute = false ∧ directory.text ≠ ""
  | .global p => p.isAbsolute = false ∧ ∃ base, home = some base ∧ base.lead ≠ directory.lead
  | .search => False

end ManifestSource

/-! ## Runs -/

theorem run_within (home : Option Path) (directory : Path) (s : Session) :
    ((Context.within home directory : StateM Session Context).run s).1 =
      ⟨directory, true, s.disk.mergedConfig (home.map Config.fileOf) directory⟩ := by
  rw [← (Session.run_loadMerged (home.map Config.fileOf) directory s).1]
  rfl

theorem manifest_mergedConfig (disk : Disk) (home : Option Path) (directory : Path) :
    (disk.mergedConfig (home.map Config.fileOf) directory).manifest =
      ((disk.configAt (Config.fileOf directory)).manifest.map directory.join).or
        (home.bind fun base => (disk.configAt (Config.fileOf base)).manifest) := by
  cases home <;> rfl

/-- A command opens what the source of the manifest gives, or searches for it. -/
theorem run_resolveManifest (s t : Session) (home : Option Path) (directory : Path)
    (named : Option Path) :
    (((Context.within home directory : StateM Session Context).run s).1.resolveManifest named :
      StateM Session _).run t =
      match (s.disk.manifestSource home directory named).opened? directory with
      | some path => (.ok path, t)
      | none => (findManifestAbove directory : StateM Session _).run t := by
  rw [run_within, Context.resolveManifest, manifest_mergedConfig]
  simp only [Disk.manifestSource]
  cases named with
  | some p => rfl
  | none =>
    cases (s.disk.configAt (Config.fileOf directory)).manifest with
    | some p => rfl
    | none =>
      cases home.bind fun base => (s.disk.configAt (Config.fileOf base)).manifest <;> rfl

/-- A global configuration is one in a home directory. -/
theorem home_of_manifestSource {disk : Disk} {home : Option Path} {directory p : Path}
    {named : Option Path} (h : disk.manifestSource home directory named = .global p) :
    ∃ base, home = some base := by
  simp only [Disk.manifestSource] at h
  split at h
  · cases h
  · split at h
    · cases h
    · cases home with
      | none => cases h
      | some base => exact ⟨base, rfl⟩

/-- The source depends on the two configuration files alone. -/
theorem manifestSource_congr {disk other : Disk} {home : Option Path} {directory : Path}
    (hproject : other.configAt (Config.fileOf directory) = disk.configAt (Config.fileOf directory))
    (hglobal : ∀ base, home = some base →
      other.configAt (Config.fileOf base) = disk.configAt (Config.fileOf base))
    (named : Option Path) :
    other.manifestSource home directory named = disk.manifestSource home directory named := by
  have hhome : (home.bind fun base => (other.configAt (Config.fileOf base)).manifest) =
      home.bind fun base => (disk.configAt (Config.fileOf base)).manifest := by
    cases home with
    | none => rfl
    | some base => rw [Option.bind_some, Option.bind_some, hglobal base rfl]
  rw [Disk.manifestSource.eq_def, Disk.manifestSource.eq_def, hproject, hhome]

/-- The path that a command opens is the one that is meant, unless it is misplaced. -/
theorem opened?_eq_path?_iff (disk : Disk) (home : Option Path) (directory : Path)
    (named : Option Path) :
    (disk.manifestSource home directory named).opened? directory =
        (disk.manifestSource home directory named).path? home directory ↔
      ¬(disk.manifestSource home directory named).IsMisplaced home directory := by
  cases hsource : disk.manifestSource home directory named with
  | named p => simp [ManifestSource.opened?, ManifestSource.path?, ManifestSource.IsMisplaced]
  | search => simp [ManifestSource.opened?, ManifestSource.path?, ManifestSource.IsMisplaced]
  | project p =>
    rw [ManifestSource.opened?, ManifestSource.path?, Option.some_inj, Path.join_join_eq_iff]
    simp only [ManifestSource.IsMisplaced]
    cases p.isAbsolute <;> cases directory.isAbsolute <;> simp
  | global p =>
    obtain ⟨base, rfl⟩ := home_of_manifestSource hsource
    rw [ManifestSource.opened?, ManifestSource.path?, Option.map_some, Option.some_inj]
    cases hp : p.isAbsolute with
    | true => simp [ManifestSource.IsMisplaced, hp, Path.join_of_isAbsolute hp]
    | false => simp [ManifestSource.IsMisplaced, hp, Path.join_eq_join_iff hp, eq_comm]

/-- What a command works on is settled by the command line and by the configuration files as they
were at the start.  When one of these names a path, that path is opened, whatever exists there and
elsewhere; it is the one that is meant exactly if it is not misplaced.  When none does, the manifest
is searched for.  Other files at the start make no difference. -/
theorem resolveManifest_follows_source (s t : Session) (home : Option Path) (directory : Path)
    (named : Option Path) :
    (((Context.within home directory : StateM Session Context).run s).1.resolveManifest named :
        StateM Session _).run t =
      (match (s.disk.manifestSource home directory named).opened? directory with
      | some path => (.ok path, t)
      | none => (findManifestAbove directory : StateM Session _).run t) ∧
    (∀ path, (s.disk.manifestSource home directory named).path? home directory = some path →
      ((((Context.within home directory : StateM Session Context).run s).1.resolveManifest named :
          StateM Session _).run t = (.ok path, t) ↔
        ¬(s.disk.manifestSource home directory named).IsMisplaced home directory)) ∧
    ∀ other : Disk,
      other.configAt (Config.fileOf directory) = s.disk.configAt (Config.fileOf directory) →
      (∀ base, home = some base →
        other.configAt (Config.fileOf base) = s.disk.configAt (Config.fileOf base)) →
      other.manifestSource home directory named = s.disk.manifestSource home directory named := by
  have hrun := run_resolveManifest s t home directory named
  refine ⟨hrun, fun path hpath => ?_, fun other hproject hglobal =>
    manifestSource_congr hproject hglobal named⟩
  rw [← opened?_eq_path?_iff, hpath, hrun]
  cases hopened : (s.disk.manifestSource home directory named).opened? directory with
  | some opened =>
    constructor
    · intro heq
      cases heq
      rfl
    · intro heq
      cases heq
      rfl
  | none =>
    -- A source with a path that is meant has one that is opened.
    cases hsource : s.disk.manifestSource home directory named with
    | search =>
      rw [hsource] at hpath
      cases hpath
    | named p | project p | global p =>
      rw [hsource] at hopened
      cases hopened

/-- A global configuration that names a manifest by a relative path. -/
def namingText : String := "manifest = \"m.json\"\n"

theorem decode_namingText : Config.decode namingText = some ⟨some ⟨"m.json"⟩, none, false⟩ := by
  decide +kernel

/-- The project's manifest counts for more than the global one, also when it is not there. -/
theorem shopText_manifest_opened :
    (configuredSession namingText shopText).disk.manifestSource (some ⟨"/home"⟩) ⟨"/shop"⟩ none =
        .project ⟨"docs/m.json"⟩ ∧
      (((Context.within (some ⟨"/home"⟩) ⟨"/shop"⟩ : StateM Session Context).run
          (configuredSession namingText shopText)).1.resolveManifest none :
        StateM Session _).run (.start ⟨.empty, []⟩) =
          (.ok ⟨"/shop/docs/m.json"⟩, .start ⟨.empty, []⟩) := by
  obtain ⟨_, hshop⟩ := read_configuredSession namingText shopText
  have hown : Config.decode shopText = some ⟨some ⟨"docs/m.json"⟩, none, false⟩ := by
    decide +kernel
  have hsource : (configuredSession namingText shopText).disk.manifestSource (some ⟨"/home"⟩)
      ⟨"/shop"⟩ none = .project ⟨"docs/m.json"⟩ := by
    simp only [Disk.manifestSource, Disk.configAt_of_read hshop hown]
  have hpath : (ManifestSource.project ⟨"docs/m.json"⟩).path? (some ⟨"/home"⟩) ⟨"/shop"⟩ =
      some ⟨"/shop/docs/m.json"⟩ := by decide +kernel
  have habsolute : Path.isAbsolute ⟨"/shop"⟩ = true := by decide
  have hplaced : ¬(ManifestSource.project ⟨"docs/m.json"⟩).IsMisplaced (some ⟨"/home"⟩)
      ⟨"/shop"⟩ := by
    simp [ManifestSource.IsMisplaced, habsolute]
  refine ⟨hsource, ?_⟩
  have hresolve := (resolveManifest_follows_source (configuredSession namingText shopText)
    (.start ⟨.empty, []⟩) (some ⟨"/home"⟩) ⟨"/shop"⟩ none).2.1
  rw [hsource] at hresolve
  exact (hresolve _ hpath).2 hplaced

/-- A relative path in the global configuration is opened in the project. -/
theorem namingText_manifest_opened_in_project :
    (configuredSession namingText "").disk.manifestSource (some ⟨"/home"⟩) ⟨"/shop"⟩ none =
        .global ⟨"m.json"⟩ ∧
      (ManifestSource.global ⟨"m.json"⟩).path? (some ⟨"/home"⟩) ⟨"/shop"⟩ =
        some ⟨"/home/m.json"⟩ ∧
      (((Context.within (some ⟨"/home"⟩) ⟨"/shop"⟩ : StateM Session Context).run
          (configuredSession namingText "")).1.resolveManifest none : StateM Session _).run
        (configuredSession namingText "") =
          (.ok ⟨"/shop/m.json"⟩, configuredSession namingText "") := by
  obtain ⟨hhome, hshop⟩ := read_configuredSession namingText ""
  have hown : Config.decode "" = some .default := by decide +kernel
  have hsource : (configuredSession namingText "").disk.manifestSource (some ⟨"/home"⟩) ⟨"/shop"⟩
      none = .global ⟨"m.json"⟩ := by
    simp only [Disk.manifestSource, Option.bind_some,
      Disk.configAt_of_read hhome decode_namingText, Disk.configAt_of_read hshop hown,
      Config.default]
  have hopened : (ManifestSource.global ⟨"m.json"⟩).opened? ⟨"/shop"⟩ =
      some ⟨"/shop/m.json"⟩ := by decide +kernel
  refine ⟨hsource, by decide +kernel, ?_⟩
  rw [run_resolveManifest, hsource, hopened]

end ManifestAtlas
