import ManifestAtlas.Files.Path

/-!
# File systems

What the project asks of a file system, as operations of a monad: the kind of
what is at a path, reading and writing files, making directories, and walking
over the files below a directory.  Reading text and making a directory with
everything that it lies in are built on these here.
-/

namespace ManifestAtlas

/-- What is at a path. -/
inductive FileKind where
  | file
  | directory
  deriving DecidableEq, Repr

/-- Why the system refused an operation. -/
inductive OsError where
  | noEntry
  | exists
  | notDirectory
  | isDirectory
  | nameTooLong
  | tooManyLinks
  | badName
  | other (text : String)
  deriving DecidableEq, Repr

/-- The wording of the system. -/
def OsError.message : OsError → String
  | .noEntry => "No such file or directory (os error 2)"
  | .exists => "File exists (os error 17)"
  | .notDirectory => "Not a directory (os error 20)"
  | .isDirectory => "Is a directory (os error 21)"
  | .nameTooLong => "File name too long (os error 36)"
  | .tooManyLinks => "Too many levels of symbolic links (os error 40)"
  | .badName => "file name contained an unexpected NUL byte"
  | .other text => text

/-- What an entry of a directory is.  A link is a link, whatever it leads to. -/
inductive EntryType where
  | file
  | directory
  | link
  | special
  deriving DecidableEq, Repr

/-- An entry that a walk comes to: its path, how many names it lies below the root of the walk,
what it is, and the last of these names. -/
structure WalkEntry where
  path : Path
  depth : Nat
  type : EntryType
  name : String
  deriving DecidableEq, Repr

/-- The root of a walk as an entry.  A path that does not end in a name stands for its own. -/
def WalkEntry.root (p : Path) (type : EntryType) : WalkEntry :=
  ⟨p, 0, type, p.fileName?.getD p.text⟩

/-- What a walk comes across: an entry, or a path that it could not look at. -/
inductive Walked where
  | entry (entry : WalkEntry)
  | failure (path : Path) (error : OsError)
  deriving DecidableEq, Repr

/-- The operations of a file system.  Paths are followed through links.  A walk comes to its root,
and from each directory on to what is in it; it follows a link at its root, but none below.  It
leaves out what is not to be kept, and does not enter a directory that is left out. -/
class FileSystem (m : Type → Type) where
  status : Path → m (Except OsError FileKind)
  read : Path → m (Except OsError ByteArray)
  write : Path → String → m (Except OsError Unit)
  makeDirectory : Path → m (Except OsError Unit)
  walk : Path → (keeps : WalkEntry → Bool) → m (List Walked)

namespace FileSystem

variable {m : Type → Type} [Monad m] [FileSystem m]

/-- Whether something is at a path. -/
def isPresent (p : Path) : m Bool := do
  return (← status p).isOk

/-- Whether a path leads to a regular file. -/
def isFile (p : Path) : m Bool := do
  return match ← status p with
    | .ok .file => true
    | _ => false

/-- Whether a path leads to a directory. -/
def isDirectory (p : Path) : m Bool := do
  return match ← status p with
    | .ok .directory => true
    | _ => false

/-- The text of a file. -/
def readText (p : Path) : m (Except OsError String) := do
  match ← read p with
  | .error e => return .error e
  | .ok bytes =>
    return match String.fromUTF8? bytes with
      | some text => .ok text
      | none => .error (.other "stream did not contain valid UTF-8")

/-- The outcome of making a directory: that it exists already is fine. -/
def settle (p : Path) (outcome : Except OsError Unit) : m (Except OsError Unit) := do
  match outcome with
  | .error .exists => return if ← isDirectory p then .ok () else .error .exists
  | outcome => return outcome

/-- Makes the first of some directories; the others are the ones it lies in, from the inside
out, and are made first when they are missing. -/
def makeAll : List Path → m (Except OsError Unit)
  | [] => return .ok ()
  | p :: outer => do
    match ← makeDirectory p with
    | .error .noEntry =>
      match ← makeAll outer with
      | .ok () => settle p (← makeDirectory p)
      | .error e => return .error e
    | outcome => settle p outcome

/-- Makes a directory and every directory that it lies in. -/
def makeDirectories (p : Path) : m (Except OsError Unit) :=
  makeAll (p.ancestors.filter fun up => up.parent?.isSome)

end FileSystem

end ManifestAtlas
