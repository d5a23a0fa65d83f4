import ManifestAtlas.Files.FileSystem
import ManifestAtlas.Json.Failure
import ManifestAtlas.Manifest.Index
import ManifestAtlas.Report.Select

/-!
# Problems of a run

Everything that can go wrong between a command and its result.  Each problem
has a message and, where there is one, a cause; on the command line the two are
joined.
-/

namespace ManifestAtlas

/-- The usual name of a manifest. -/
def manifestName : String := "logic-manifest.json"

/-- The other name that a manifest may have. -/
def manifestOtherName : String := "manifest.json"

/-- A manifest that could not be found or read. -/
inductive ManifestProblem where
  | notFound (directory : Path)
  | ambiguous (first second : Path)
  | unreadable (path : Path) (cause : OsError)
  | malformed (position : Json.Position) (message : String)
  deriving DecidableEq, Repr

/-- An operation on files that failed. -/
inductive FileProblem where
  | createDirectory (path : Path) (cause : OsError)
  | writeFile (path : Path) (cause : OsError)
  | writeCompletions (directory : Path) (cause : OsError)
  | notADirectory (path : Path)
  | readConfig (path : Path) (cause : OsError)
  | parseConfig (path : Path)
  deriving DecidableEq, Repr

/-- A project index that could not be read. -/
inductive IndexFileProblem where
  | unreadable (path : Path) (cause : OsError)
  | unrecognized (detail : String)
  deriving DecidableEq, Repr

/-- A problem of a command. -/
inductive Problem where
  | manifest (problem : ManifestProblem)
  | file (problem : FileProblem)
  | index (problem : IndexFileProblem)
  | selection (problem : SelectError)
  | lintFailed (summary : String)
  deriving DecidableEq, Repr

/-- The problem of a manifest whose text was refused. -/
def ManifestProblem.ofFailure (failure : Json.Failure) (text : String) : ManifestProblem :=
  .malformed (failure.position text) (failure.message text)

/-- What is wrong. -/
def ManifestProblem.message : ManifestProblem → String
  | .notFound directory =>
    s!"could not find {manifestName} in {directory.text} or any parent directory"
  | .ambiguous first second => s!"both {first.text} and {second.text} exist"
  | .unreadable path _ => s!"failed to read manifest: {path.text}"
  | .malformed p message => s!"invalid manifest at line {p.line}, column {p.column}: {message}"

/-- The code of a problem. -/
def ManifestProblem.code : ManifestProblem → String
  | .notFound _ => "logicmap::manifest::not_found"
  | .ambiguous .. => "logicmap::manifest::ambiguous"
  | .unreadable .. => "logicmap::manifest::io"
  | .malformed .. => "logicmap::manifest::decode"

/-- What might help against a problem. -/
def ManifestProblem.help? : ManifestProblem → Option String
  | .notFound _ => some "Pass the manifest explicitly with `--manifest <path>`"
  | .ambiguous .. => some "Remove one of the files or pass `--manifest <path>`"
  | _ => none

/-- What is wrong. -/
def FileProblem.message : FileProblem → String
  | .createDirectory path _ => s!"failed to create directory: {path.text}"
  | .writeFile path _ => s!"failed to write file: {path.text}"
  | .writeCompletions directory _ => s!"failed to write completions to {directory.text}"
  | .notADirectory path => s!"not a directory: {path.text}"
  | .readConfig path _ => s!"failed to read config file: {path.text}"
  | .parseConfig path => s!"failed to parse config file: {path.text}"

/-- The system's wording of the cause, if there is one. -/
def FileProblem.cause? : FileProblem → Option String
  | .createDirectory _ e | .writeFile _ e | .writeCompletions _ e | .readConfig _ e =>
    some e.message
  | .notADirectory _ | .parseConfig _ => none

/-- What is wrong. -/
def IndexFileProblem.message : IndexFileProblem → String
  | .unreadable path _ => s!"failed to read project index: {path.text}"
  | .unrecognized detail => s!"unrecognized project index: {detail}"

/-- The code of a problem. -/
def IndexFileProblem.code : IndexFileProblem → String
  | .unreadable .. => "logicmap::index::io"
  | .unrecognized _ => "logicmap::index::shape"

/-- What might help against a problem. -/
def IndexFileProblem.help? : IndexFileProblem → Option String
  | .unreadable .. => none
  | .unrecognized _ =>
    some ("Expected an array of project ids or objects, optionally wrapped in " ++
      "\x7b\"projects\": [...]\x7d")

/-- What is wrong, and why. -/
def Problem.explanation : Problem → String
  | .manifest (.unreadable path e) =>
    s!"{(ManifestProblem.unreadable path e).message}: {e.message}"
  | .manifest problem => problem.message
  | .file problem => problem.message ++ problem.cause?.elim "" fun cause => ": " ++ cause
  | .index (.unreadable path e) => s!"{(IndexFileProblem.unreadable path e).message}: {e.message}"
  | .index (.unrecognized detail) =>
    s!"{(IndexFileProblem.unrecognized detail).message}: {detail}"
  | .selection problem => problem.message
  | .lintFailed summary =>
    s!"lint failed: {summary}\nhelp: Run `logicmap lint` for the full report"

/-- What the command line shows of a problem. -/
def Problem.report (coloured : Bool) : Problem → String
  | .selection problem => problem.diagnostic.text coloured
  | .manifest (.notFound directory) =>
    s!"error: {(Problem.manifest (.notFound directory)).explanation}\n" ++
    s!"help: Pass `--manifest <path>` or run from a directory containing {manifestName}\n"
  | problem => s!"error: {problem.explanation}\n"

end ManifestAtlas
