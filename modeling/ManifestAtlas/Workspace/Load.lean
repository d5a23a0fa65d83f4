import ManifestAtlas.Files.Session
import ManifestAtlas.Manifest.Schema
import ManifestAtlas.Workspace.Problem

/-!
# Finding and loading manifests

A manifest has one of two names.  It is looked for in one directory, in a
directory and everything above it, or in everything below a directory.
-/

namespace ManifestAtlas

variable {m : Type → Type} [Monad m] [FileSystem m]

/-- Decodes the text of a manifest. -/
def Manifest.decode (text : String) : Except ManifestProblem Manifest :=
  match Schema.manifest.codec.decode text with
  | .ok manifest => .ok manifest
  | .error failure => .error (.ofFailure failure text)

/-- Loads a manifest file. -/
def Manifest.load [Console m] (path : Path) : m (Except ManifestProblem Manifest) := do
  match ← FileSystem.readText path with
  | .error e => return .error (.unreadable path e)
  | .ok text =>
    match Manifest.decode text with
    | .error problem => return .error problem
    | .ok manifest =>
      Console.log .debug
        s!"loaded manifest `{manifest.project.name}` with {manifest.modules.length} modules"
      return .ok manifest

/-- Finds the manifest in a directory. -/
def findManifestIn (directory : Path) : m (Except ManifestProblem Path) := do
  let first := directory.child manifestName
  let second := directory.child manifestOtherName
  match ← FileSystem.isFile first, ← FileSystem.isFile second with
  | true, true => return .error (.ambiguous first second)
  | true, false => return .ok first
  | false, true => return .ok second
  | false, false => return .error (.notFound directory)

/-- Finds the manifest in the first of some directories that has one. -/
def findManifestAmong (start : Path) : List Path → m (Except ManifestProblem Path)
  | [] => return .error (.notFound start)
  | directory :: directories => do
    match ← findManifestIn directory with
    | .error (.notFound _) => findManifestAmong start directories
    | found => return found

/-- Finds the manifest in a directory or the nearest directory above it. -/
def findManifestAbove (start : Path) : m (Except ManifestProblem Path) :=
  findManifestAmong start start.ancestors

/-- The names of directories that are never searched. -/
def skippedNames : List String :=
  [".git", "node_modules", "target", ".logicmap"]

/-- Whether a walk for manifests keeps an entry.  Only a directory is left out, for its name, and
only below the root of the walk. -/
def isSearched (entry : WalkEntry) : Bool :=
  !(entry.type == .directory && decide (0 < entry.depth) && skippedNames.contains entry.name)

/-- Whether a file is a manifest by its name. -/
def isManifestName (name : String) : Bool :=
  name == manifestName || name == manifestOtherName

/-- The manifests that a walk came across, in the order of their paths. -/
def manifestsOf (walked : List Walked) : List Path :=
  let found := walked.filterMap fun
    | .entry found =>
      if found.type = .file ∧ isManifestName found.name then some found.path else none
    | .failure _ _ => none
  found.mergeSort Path.notAfter

/-- Warns of everything that a walk could not look at. -/
def reportFailures [Console m] : List Walked → m Unit
  | [] => return ()
  | .failure path e :: rest => do
    Console.log .warn s!"walk error: IO error for operation on {path.text}: {e.message}"
    reportFailures rest
  | .entry _ :: rest => reportFailures rest

/-- Finds every manifest below a directory. -/
def findManifestsBelow [Console m] (root : Path) : m (Except FileProblem (List Path)) := do
  let walked ← FileSystem.walk root isSearched
  reportFailures walked
  let found := manifestsOf walked
  if found.isEmpty && !(← FileSystem.isDirectory root) then return .error (.notADirectory root)
  else return .ok found

/-- A manifest that was found, decoded or with the reason why it could not be. -/
structure ScannedManifest where
  path : Path
  manifest : Except String Manifest

/-- Loads each of some manifests.  One that cannot be loaded is kept with the reason. -/
def loadEach [Console m] : List Path → m (List ScannedManifest)
  | [] => return []
  | path :: paths => do
    let manifest ← Manifest.load path
    let rest ← loadEach paths
    return ⟨path, manifest.mapError ManifestProblem.message⟩ :: rest

/-- Finds and loads every manifest below a directory. -/
def scan [Console m] (root : Path) : m (Except FileProblem (List ScannedManifest)) := do
  match ← findManifestsBelow root with
  | .error problem => return .error problem
  | .ok paths =>
    Console.log .debug s!"found {paths.length} manifests below {root.text}"
    return .ok (← loadEach paths)

/-- The line of a manifest that was found, its path seen from a directory. -/
def ScannedManifest.line (root : Path) (entry : ScannedManifest) : String :=
  let shown := ((entry.path.relativeTo? root).getD entry.path).text
  match entry.manifest with
  | .ok manifest => s!"{shown}: {manifest.project.name} ({manifest.modules.length} modules)"
  | .error reason => s!"{shown}: invalid ({reason})"

/-- The text of a scan, one line for each manifest. -/
def scanListing (root : Path) (scanned : List ScannedManifest) : String :=
  String.join (scanned.map fun entry => entry.line root ++ "\n")

/-- Loads an index file. -/
def ProjectIndex.load (path : Path) : m (Except IndexFileProblem ProjectIndex) := do
  match ← FileSystem.readText path with
  | .error e => return .error (.unreadable path e)
  | .ok text =>
    return match ProjectIndex.decode text with
      | .ok index => .ok index
      | .error problem => .error (.unrecognized (problem.message text))

end ManifestAtlas
