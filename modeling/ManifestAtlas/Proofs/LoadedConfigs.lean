import ManifestAtlas.Workspace.Config

/-!
# Loaded configurations

Loading a configuration changes no file, and what is loaded depends on the file
tree alone: `Disk.configAt` is the configuration of one file, and
`Disk.mergedConfig` is that of a project on top of the global one.  A file that
is missing or cannot be decoded sets nothing.
-/

namespace ManifestAtlas

/-- The configuration of a file; one that cannot be loaded sets nothing. -/
def Disk.configAt (disk : Disk) (path : Path) : Config :=
  match disk.read path with
  | .error _ => .default
  | .ok bytes => ((String.fromUTF8? bytes).bind Config.decode).getD .default

/-- The configuration of a project on top of the global one. -/
def Disk.mergedConfig (disk : Disk) (globalFile : Option Path) (projectRoot : Path) : Config :=
  (globalFile.elim .default disk.configAt).merge
    ((disk.configAt (Config.fileOf projectRoot)).anchor projectRoot)

theorem fromUTF8?_toUTF8 (text : String) : String.fromUTF8? text.toUTF8 = some text := by
  simp only [String.fromUTF8?, Option.dite_none_right_eq_some]
  exact ⟨text.isValidUTF8, rfl⟩

namespace Disk

variable {disk : Disk} {path : Path} {text : String}

/-- A file that holds a text that decodes is loaded as that configuration. -/
theorem configAt_of_read {config : Config} (hread : disk.read path = .ok text.toUTF8)
    (hdecode : Config.decode text = some config) : disk.configAt path = config := by
  rw [configAt, hread]
  dsimp only
  rw [fromUTF8?_toUTF8, Option.bind_some, hdecode, Option.getD_some]

/-- Nothing can be read from a path that leads to nothing. -/
theorem configAt_of_status (h : (disk.status path).isOk = false) :
    disk.configAt path = .default := by
  have hread : ∃ e, disk.read path = .error e := by
    rw [status] at h
    rw [read]
    split at h
    · exact ⟨_, rfl⟩
    · cases h
    · cases h
    · exact ⟨_, rfl⟩
  obtain ⟨e, he⟩ := hread
  rw [configAt, he]

end Disk

namespace Session

theorem run_readText (path : Path) (s : Session) :
    (FileSystem.readText path : StateM Session (Except OsError String)).run s =
      (match s.disk.read path with
        | .error e => .error e
        | .ok bytes =>
          match String.fromUTF8? bytes with
          | some text => .ok text
          | none => .error (.other "stream did not contain valid UTF-8"), s) := by
  have hread : (FileSystem.read path : StateM Session (Except OsError ByteArray)).run s =
      (s.disk.read path, s) := rfl
  rw [FileSystem.readText, run_bind, hread]
  dsimp only
  cases s.disk.read path <;> rfl

/-- Loading a file gives its configuration or, for one that cannot be loaded, a problem. -/
theorem run_load (path : Path) (s : Session) :
    ∃ loaded : Except FileProblem Config,
      (Config.load path : StateM Session _).run s = (loaded, s) ∧
      loaded.toOption.getD .default = s.disk.configAt path := by
  rw [Config.load, run_bind, run_readText, Disk.configAt]
  cases s.disk.read path with
  | error e => exact ⟨_, rfl, rfl⟩
  | ok bytes =>
    dsimp only
    cases String.fromUTF8? bytes with
    | none => exact ⟨_, rfl, rfl⟩
    | some text =>
      refine ⟨_, rfl, ?_⟩
      rw [Option.bind_some]
      cases Config.decode text <;> rfl

theorem run_loadOrDefault (path : Path) (s : Session) :
    ((Config.loadOrDefault path : StateM Session Config).run s).1 = s.disk.configAt path ∧
      ((Config.loadOrDefault path : StateM Session Config).run s).2.disk = s.disk := by
  rw [Config.loadOrDefault, run_bind, run_isPresent]
  dsimp only
  cases hstatus : (s.disk.status path).isOk with
  | false => exact ⟨(Disk.configAt_of_status hstatus).symm, rfl⟩
  | true =>
    obtain ⟨loaded, hload, hconfig⟩ := run_load path s
    rw [if_pos rfl, run_bind, hload]
    cases loaded with
    | ok config => exact ⟨hconfig, rfl⟩
    | error problem => exact ⟨hconfig, rfl⟩

/-- The merged configuration depends on the file tree alone, which stays as it is. -/
theorem run_loadMerged (globalFile : Option Path) (projectRoot : Path) (s : Session) :
    ((Config.loadMerged globalFile projectRoot : StateM Session Config).run s).1 =
        s.disk.mergedConfig globalFile projectRoot ∧
      ((Config.loadMerged globalFile projectRoot : StateM Session Config).run s).2.disk =
        s.disk := by
  cases globalFile with
  | none =>
    obtain ⟨hproject, hdisk⟩ := run_loadOrDefault (Config.fileOf projectRoot) s
    refine ⟨?_, hdisk⟩
    rw [Disk.mergedConfig, ← hproject]
    rfl
  | some path =>
    obtain ⟨hglobal, hkept⟩ := run_loadOrDefault path s
    obtain ⟨hproject, hdisk⟩ := run_loadOrDefault (Config.fileOf projectRoot)
      ((Config.loadOrDefault path : StateM Session Config).run s).2
    refine ⟨?_, hdisk.trans hkept⟩
    rw [hkept] at hproject
    rw [Disk.mergedConfig, Option.elim_some, ← hproject, ← (s.disk.configAt path).default_merge,
      ← hglobal]
    rfl

end Session

end ManifestAtlas
