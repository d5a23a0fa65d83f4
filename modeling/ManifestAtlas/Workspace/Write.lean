import ManifestAtlas.Files.Session
import ManifestAtlas.Render.Rendering
import ManifestAtlas.Workspace.Problem

/-!
# Writing diagrams

Files are written together with the directories that they lie in.  The diagrams
of a manifest are written in order, and the first failure ends it.
-/

namespace ManifestAtlas

variable {m : Type → Type} [Monad m] [FileSystem m]

/-- Makes sure that a directory is there. -/
def ensureDirectory (path : Path) : m (Except FileProblem Unit) := do
  if ← FileSystem.isPresent path then return .ok ()
  else
    match ← FileSystem.makeDirectories path with
    | .ok () => return .ok ()
    | .error e => return .error (.createDirectory path e)

/-- Writes a file that lies in an existing directory. -/
def writeInPlace (path : Path) (text : String) : m (Except FileProblem Unit) := do
  match ← FileSystem.write path text with
  | .ok () => return .ok ()
  | .error e => return .error (.writeFile path e)

/-- The directory that a path lies in, unless that is the working directory. -/
def directoryOf? (path : Path) : Option Path :=
  path.parent?.filter fun p => !p.text.isEmpty

/-- Writes a file, and makes the directories that it lies in. -/
def writeFile (path : Path) (text : String) : m (Except FileProblem Unit) := do
  match directoryOf? path with
  | none => writeInPlace path text
  | some directory =>
    match ← ensureDirectory directory with
    | .error problem => return .error problem
    | .ok () => writeInPlace path text

/-- Writes diagrams below a directory, and returns their paths. -/
def writeAll [Console m] (outDir : Path) : List RenderedDiagram → m (Except FileProblem (List Path))
  | [] => return .ok []
  | diagram :: diagrams => do
    let path := outDir.join ⟨diagram.file.path⟩
    match ← writeFile path diagram.content with
    | .error problem => return .error problem
    | .ok () =>
      Console.log .debug s!"wrote {path.text}"
      match ← writeAll outDir diagrams with
      | .error problem => return .error problem
      | .ok paths => return .ok (path :: paths)

end ManifestAtlas
