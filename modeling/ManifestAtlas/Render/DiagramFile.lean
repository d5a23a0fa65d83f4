import ManifestAtlas.Text.Blank

/-!
# Files of diagrams

Every diagram of a manifest goes into a file of its own below the output
directory.  Folders and names come from identifiers, with every character
replaced that could mean something in a path.  When a path is taken already, a
number is appended to the name.

Main statement: a file stem is never empty (`fileStem_ne_nil`).
-/

namespace ManifestAtlas

/-- What a diagram shows. -/
inductive DiagramKind where
  | dependencies
  | mindmap
  | flow
  | states
  deriving DecidableEq, Repr

/-- The extension of the files of a kind. -/
def DiagramKind.extension : DiagramKind → String
  | .mindmap => "md"
  | _ => "mmd"

/-- The name of a kind. -/
def DiagramKind.name : DiagramKind → String
  | .dependencies => "Dependencies"
  | .mindmap => "Mindmap"
  | .flow => "Flow"
  | .states => "States"

/-- A file below the output directory. -/
structure DiagramFile where
  kind : DiagramKind
  folders : List String
  stem : String
  deriving DecidableEq, Repr

/-- Whether a character is replaced in the name of a file. -/
def isUnsafeInName (c : Char) : Bool :=
  "/\\:*?\"<>|.".toList.contains c || isControl c || isBlank c

/-- An identifier as the name of a file, as a list of characters. -/
def fileStemChars (id : List Char) : List Char :=
  match id with
  | [] => ['x']
  | id => id.map fun c => if isUnsafeInName c then '_' else c

/-- An identifier as the name of a file. -/
def fileStem (id : String) : String :=
  String.ofList (fileStemChars id.toList)

namespace DiagramFile

/-- The path of a file, relative to the output directory. -/
def path (file : DiagramFile) : String :=
  "/".intercalate (file.folders ++ [file.stem ++ "." ++ file.kind.extension])

/-- The file with the `n`-th suffix: none, `-2`, `-3` and so on. -/
def suffixed (file : DiagramFile) : (n : Nat) → DiagramFile
  | 0 => file
  | n + 1 => { file with stem := s!"{file.stem}-{n + 2}" }

/-- The first file from the `n`-th suffix on whose path is not taken, among `fuel + 1` of
them. -/
def firstFree (file : DiagramFile) (taken : List String) : (fuel n : Nat) → DiagramFile
  | 0, n => file.suffixed n
  | fuel + 1, n =>
    if taken.contains (file.suffixed n).path then file.firstFree taken fuel (n + 1)
    else file.suffixed n

/-- Gives every file of a list a path of its own; `taken` are the paths in use.  Among one more
suffixes than there are paths in use, one is free. -/
def assignPaths (taken : List String) : List DiagramFile → List DiagramFile
  | [] => []
  | file :: files =>
    let free := file.firstFree taken taken.length 0
    free :: assignPaths (free.path :: taken) files

end DiagramFile

theorem fileStem_ne_nil (id : List Char) : fileStemChars id ≠ [] := by
  unfold fileStemChars
  split
  · simp
  · rename_i h
    simpa using h

end ManifestAtlas
