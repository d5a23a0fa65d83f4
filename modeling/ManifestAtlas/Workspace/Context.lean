import ManifestAtlas.Workspace.Config
import ManifestAtlas.Workspace.Load

/-!
# The context of a command

Where a command runs, with which configuration, and whether it shows colours.
The manifest that it works on is the one that is named on the command line, or
else the one that the configuration names, or else the nearest one.
-/

namespace ManifestAtlas

/-- The context of a command. -/
structure Context where
  workingDirectory : Path
  coloured : Bool
  config : Config
  deriving DecidableEq, Repr

namespace Context

variable {m : Type → Type} [Monad m] [FileSystem m]

/-- The context of a command that runs in a directory, for a user with a home directory. -/
def within [Console m] (home : Option Path) (directory : Path) : m Context := do
  let config ← Config.loadMerged (home.map Config.fileOf) directory
  return ⟨directory, true, config⟩

/-- Finds the nearest manifest. -/
def findManifest (context : Context) : m (Except ManifestProblem Path) :=
  findManifestAbove context.workingDirectory

/-- The path of the manifest to work on. -/
def resolveManifest (context : Context) (named : Option Path) :
    m (Except ManifestProblem Path) :=
  match named.or context.config.manifest with
  | some path => return .ok (context.workingDirectory.join path)
  | none => context.findManifest

/-- Loads the manifest to work on, and returns it with its path. -/
def loadManifest [Console m] (context : Context) (named : Option Path) :
    m (Except ManifestProblem (Path × Manifest)) := do
  match ← context.resolveManifest named with
  | .error problem => return .error problem
  | .ok path =>
    Console.log .debug s!"using manifest {path.text}"
    match ← Manifest.load path with
    | .error problem => return .error problem
    | .ok manifest => return .ok (path, manifest)

end Context

end ManifestAtlas
