import ManifestAtlas.Files.Session
import ManifestAtlas.Toml.Table
import ManifestAtlas.Workspace.Problem

/-!
# Configuration

Two files can set defaults: one in the home directory, and one in the project,
which counts for more.  Both are TOML documents with the keys `manifest`,
`render.out_dir` and `lint.deny_warnings`; unknown keys are ignored.

Main statements: merging in an empty configuration, or into one, changes
nothing (`Config.merge_default`, `Config.default_merge`).
-/

namespace ManifestAtlas

/-- Defaults for the commands. -/
structure Config where
  manifest : Option Path
  outDir : Option Path
  denyWarnings : Bool
  deriving DecidableEq, Repr

namespace Config

/-- The configuration that sets nothing. -/
def default : Config :=
  ⟨none, none, false⟩

/-- The configuration with another one taking precedence. -/
def merge (config other : Config) : Config where
  manifest := other.manifest.or config.manifest
  outDir := other.outDir.or config.outDir
  denyWarnings := config.denyWarnings || other.denyWarnings

/-- A value under a key, if the key is there and the value has the right type. -/
def member? {α : Type} (key : String) (decode : Toml.Value → Option α)
    (members : List (String × Toml.Value)) : Option (Option α) :=
  match members.find? fun m => m.1 = key with
  | none => some none
  | some (_, v) => (decode v).map some

/-- A path. -/
def path? : Toml.Value → Option Path
  | .string s => some ⟨s⟩
  | _ => none

/-- A truth value. -/
def boolean? : Toml.Value → Option Bool
  | .boolean b => some b
  | _ => none

/-- A group of settings with a single one in it: a table with its key, or an array that starts
with its value.  A date or time counts as a table without any known key. -/
def group? {α : Type} (key : String) (decode : Toml.Value → Option α) :
    Toml.Value → Option (Option α)
  | .table members => member? key decode members
  | .array [] => some none
  | .array (v :: _) => (decode v).map some
  | .quantity (.moment _) => some none
  | _ => none

/-- Decodes the members of a document. -/
def ofMembers? (members : List (String × Toml.Value)) : Option Config := do
  let manifest ← member? "manifest" path? members
  let outDir ← member? "render" (group? "out_dir" path?) members
  let denyWarnings ← member? "lint" (group? "deny_warnings" boolean?) members
  some ⟨manifest, outDir.join, denyWarnings.join.getD false⟩

/-- Decodes a document. -/
def decode (text : String) : Option Config := do
  ofMembers? (← Toml.decode text)

/-- The directory of configuration files, in a project or in the home directory. -/
def directoryOf (base : Path) : Path :=
  base.child ".logicmap"

/-- The configuration file of a project or of the home directory. -/
def fileOf (base : Path) : Path :=
  (directoryOf base).child "config.toml"

/-- Names the manifest relative to a directory, unless its path is absolute. -/
def anchor (config : Config) (directory : Path) : Config :=
  { config with manifest := config.manifest.map fun p => directory.join p }

variable {m : Type → Type} [Monad m] [FileSystem m]

/-- Loads a configuration file. -/
def load (path : Path) : m (Except FileProblem Config) := do
  match ← FileSystem.readText path with
  | .error e => return .error (.readConfig path e)
  | .ok text =>
    return match decode text with
      | some config => .ok config
      | none => .error (.parseConfig path)

/-- Loads a configuration file that need not be there.  One that cannot be loaded sets
nothing. -/
def loadOrDefault [Console m] (path : Path) : m Config := do
  if ← FileSystem.isPresent path then
    match ← load path with
    | .ok config => return config
    | .error problem =>
      Console.log .warn s!"Failed to load config from {path.text}: {problem.message}"
      return default
  else return default

/-- Loads the configuration of a project on top of the global one. -/
def loadMerged [Console m] (globalFile : Option Path) (projectRoot : Path) : m Config := do
  let base ← match globalFile with
    | none => pure default
    | some path => do
      let config ← loadOrDefault path
      pure (default.merge config)
  let project ← loadOrDefault (fileOf projectRoot)
  return base.merge (project.anchor projectRoot)

theorem merge_default (config : Config) : config.merge default = config := by
  cases config
  simp [merge, default]

theorem default_merge (config : Config) : default.merge config = config := by
  cases config
  simp [merge, default]

end Config

end ManifestAtlas
