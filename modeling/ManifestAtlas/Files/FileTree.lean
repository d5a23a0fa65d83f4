import ManifestAtlas.Files.FileSystem

/-!
# File trees

A file system as a plain value: what is at each place, a place being the list
of names that leads there from the root.  Paths are resolved name by name,
through links, before anything is looked at or changed, so that every change
concerns a single place.

Main statements: looking up a place after putting something there finds it
(`find?_insert_self`), and every other place is as before
(`find?_insert_of_ne`).
-/

namespace ManifestAtlas

/-- The names that lead to a place from the root. -/
abbrev Place := List String

/-- What is at a place. -/
inductive FileEntry where
  | file (content : ByteArray)
  | directory
  | link (target : Path)

/-- What an entry is. -/
def FileEntry.type : FileEntry → EntryType
  | .file _ => .file
  | .directory => .directory
  | .link _ => .link

/-- What is at each place other than the root. -/
structure FileTree where
  entries : List (Place × FileEntry)

namespace FileTree

/-- The tree with nothing below the root. -/
def empty : FileTree :=
  ⟨[]⟩

/-- What is at a place. -/
def find? (tree : FileTree) (place : Place) : Option FileEntry :=
  if place.isEmpty then some .directory
  else (tree.entries.find? fun e => e.1 = place).map Prod.snd

/-- The tree with something put at a place. -/
def insert (tree : FileTree) (place : Place) (entry : FileEntry) : FileTree :=
  ⟨(place, entry) :: tree.entries.filter fun e => e.1 ≠ place⟩

/-- The tree without a place and everything below it. -/
def remove (tree : FileTree) (place : Place) : FileTree :=
  ⟨tree.entries.filter fun e => !place.isPrefixOf e.1⟩

/-- Where a path leads: to something, or to a free place in a directory. -/
inductive Target where
  | present (place : Place) (entry : FileEntry)
  | free (place : Place)

/-- What a path is followed for.  It decides what happens at its last name: whether a link there
is followed, and what a slash behind it means.  Looking follows the link, and the slash asks for a
directory.  Inspecting stops at the link, unless a slash stands behind it.  A directory is made at
the name itself, with or without a slash, and nothing is written where a slash asks for a
directory. -/
inductive Purpose where
  | look
  | inspect
  | makeDirectory
  | write
  deriving DecidableEq, Repr

/-- The longest name of an entry, in bytes. -/
def maxNameBytes : Nat := 255

/-- The number of links that are followed on the way. -/
def maxLinks : Nat := 40

/-- The longest path, in bytes. -/
def maxPathBytes : Nat := 4095

/-- Whether only slashes follow the last name of a path. -/
def isLast (rest : List String) : Bool :=
  rest.all (· == "")

/-- Whether a link is followed, given the segments behind it. -/
def Purpose.followsLink (purpose : Purpose) (rest : List String) : Bool :=
  match purpose with
  | .look | .write => true
  | .inspect => !rest.isEmpty
  | .makeDirectory => !isLast rest

/-- Whether a file may stand in front of these segments. -/
def Purpose.endsAtFile (purpose : Purpose) (rest : List String) : Bool :=
  rest.isEmpty || (purpose = .makeDirectory && isLast rest)

/-- Follows segments from a directory.  `links` is the number of links that may still be
followed. -/
def follow (tree : FileTree) (purpose : Purpose) :
    (links : Nat) → (place : Place) → (segments : List String) → Except OsError Target
  | _, place, [] => .ok (.present place .directory)
  | links, place, name :: rest =>
    if isIdle name then follow tree purpose links place rest
    else if name = ".." then follow tree purpose links place.dropLast rest
    else if purpose = .write && !rest.isEmpty && isLast rest then .error .isDirectory
    else if maxNameBytes < name.utf8ByteSize then .error .nameTooLong
    else
      match tree.find? (place ++ [name]) with
      | none => if isLast rest then .ok (.free (place ++ [name])) else .error .noEntry
      | some (.file content) =>
        if purpose.endsAtFile rest then .ok (.present (place ++ [name]) (.file content))
        else .error .notDirectory
      | some .directory => follow tree purpose links (place ++ [name]) rest
      | some (.link target) =>
        if purpose.followsLink rest then
          match links with
          | 0 => .error .tooManyLinks
          | links + 1 =>
            follow tree purpose links (if target.isAbsolute then [] else place)
              (target.segments ++ rest)
        else .ok (.present (place ++ [name]) (.link target))
termination_by links _ segments => (links, segments.length)

/-- The entries of the directory at a place, with their names. -/
def children (tree : FileTree) (place : Place) : List (String × FileEntry) :=
  tree.entries.filterMap fun e =>
    if e.1.dropLast = place then e.1.getLast?.map fun name => (name, e.2) else none

/-- The number of entries below a place. -/
def countBelow (tree : FileTree) (place : Place) : Nat :=
  tree.entries.countP fun e => place.isPrefixOf e.1 && e.1 != place

theorem mem_children {tree : FileTree} {place : Place} {name : String} {entry : FileEntry} :
    (name, entry) ∈ tree.children place ↔ (place ++ [name], entry) ∈ tree.entries := by
  rw [children, List.mem_filterMap]
  constructor
  · rintro ⟨⟨found, other⟩, hmem, hchild⟩
    dsimp only at hchild
    split at hchild
    · rename_i hparent
      obtain ⟨last, hlast, heq⟩ := Option.map_eq_some_iff.1 hchild
      cases heq
      obtain ⟨front, rfl⟩ := List.getLast?_eq_some_iff.1 hlast
      rw [List.dropLast_concat] at hparent
      exact hparent ▸ hmem
    · cases hchild
  · intro hmem
    exact ⟨_, hmem, by simp⟩

/-- Fewer entries lie below an entry of a directory than below the directory: not the entry
itself. -/
theorem countBelow_lt {tree : FileTree} {place : Place} {name : String} {entry : FileEntry}
    (h : (name, entry) ∈ tree.children place) :
    tree.countBelow (place ++ [name]) < tree.countBelow place := by
  have hmem := mem_children.1 h
  have hbelow : tree.entries.filter (fun e =>
        (place ++ [name]).isPrefixOf e.1 && e.1 != place ++ [name]) =
      (tree.entries.filter fun e => place.isPrefixOf e.1 && e.1 != place).filter fun e =>
        (place ++ [name]).isPrefixOf e.1 && e.1 != place ++ [name] := by
    rw [List.filter_filter]
    refine List.filter_congr fun e _ => ?_
    rw [Bool.eq_iff_iff]
    simp only [Bool.and_eq_true, List.isPrefixOf_iff_prefix, bne_iff_ne, iff_self_and]
    rintro ⟨⟨rest, hrest⟩, -⟩
    exact ⟨⟨[name] ++ rest, by rw [← hrest, List.append_assoc]⟩, by simp [← hrest]⟩
  rw [countBelow, countBelow, List.countP_eq_length_filter, List.countP_eq_length_filter, hbelow,
    List.length_filter_lt_length_iff_exists]
  refine ⟨_, List.mem_filter.2 ⟨hmem, ?_⟩, by simp⟩
  simp [List.isPrefixOf_iff_prefix]

/-- What a walk comes across in the directory at a place, which lies `depth` names below its root;
`p` is the path that leads there.  A directory cannot be opened by a path that is too long. -/
def walkBelow (tree : FileTree) (keeps : WalkEntry → Bool) (depth : Nat) (place : Place)
    (p : Path) : List Walked :=
  if maxPathBytes < p.text.utf8ByteSize then [.failure p .nameTooLong]
  else
    (tree.children place).attach.flatMap fun ⟨(name, entry), _hchild⟩ =>
      let found : WalkEntry := ⟨p.child name, depth + 1, entry.type, name⟩
      if keeps found then
        .entry found :: match entry with
          | .directory => tree.walkBelow keeps (depth + 1) (place ++ [name]) (p.child name)
          | _ => []
      else []
termination_by tree.countBelow place
decreasing_by exact countBelow_lt _hchild

end FileTree

/-- An entry that a walk comes to, if it is to be kept. -/
def Walked.ifKept (keeps : WalkEntry → Bool) (entry : WalkEntry) : List Walked :=
  if keeps entry then [.entry entry] else []

/-- A file tree with the place that relative paths start from. -/
structure Disk where
  tree : FileTree
  workingDirectory : Place

namespace Disk

open FileTree

/-- Where a path leads. -/
def resolve (disk : Disk) (purpose : Purpose) (p : Path) : Except OsError Target :=
  if p.text.contains '\x00' then .error .badName
  else if p.text.isEmpty then .error .noEntry
  else if maxPathBytes < p.text.utf8ByteSize then .error .nameTooLong
  else
    disk.tree.follow purpose maxLinks (if p.isAbsolute then [] else disk.workingDirectory)
      p.segments

/-- The disk with something put at a place. -/
def put (disk : Disk) (place : Place) (entry : FileEntry) : Disk :=
  { disk with tree := disk.tree.insert place entry }

/-- The kind of what a path leads to. -/
def status (disk : Disk) (p : Path) : Except OsError FileKind :=
  match disk.resolve .look p with
  | .error e => .error e
  | .ok (.present _ (.file _)) => .ok .file
  | .ok (.present _ _) => .ok .directory
  | .ok (.free _) => .error .noEntry

/-- The content of a file. -/
def read (disk : Disk) (p : Path) : Except OsError ByteArray :=
  match disk.resolve .look p with
  | .error e => .error e
  | .ok (.present _ (.file content)) => .ok content
  | .ok (.present _ _) => .error .isDirectory
  | .ok (.free _) => .error .noEntry

/-- The disk after writing a file. -/
def write (disk : Disk) (p : Path) (text : String) : Except OsError Disk :=
  match disk.resolve .write p with
  | .error e => .error e
  | .ok (.present place (.file _)) | .ok (.free place) => .ok (disk.put place (.file text.toUTF8))
  | .ok (.present _ _) => .error .isDirectory

/-- The disk after making a directory. -/
def makeDirectory (disk : Disk) (p : Path) : Except OsError Disk :=
  match disk.resolve .makeDirectory p with
  | .error e => .error e
  | .ok (.present _ _) => .error .exists
  | .ok (.free place) => .ok (disk.put place .directory)

/-- What a walk comes across at a path.  A link at its root is an entry of its own, and leads on if
it leads to a directory, whether it is kept or not. -/
def walk (disk : Disk) (p : Path) (keeps : WalkEntry → Bool) : List Walked :=
  match disk.resolve .inspect p with
  | .error e => [.failure p e]
  | .ok (.free _) => [.failure p .noEntry]
  | .ok (.present _ (.file _)) => Walked.ifKept keeps (.root p .file)
  | .ok (.present place .directory) =>
    if keeps (.root p .directory) then
      .entry (.root p .directory) :: disk.tree.walkBelow keeps 0 place p
    else []
  | .ok (.present _ (.link _)) =>
    match disk.resolve .look p with
    | .error e => [.failure p e]
    | .ok (.free _) => [.failure p .noEntry]
    | .ok (.present place .directory) =>
      Walked.ifKept keeps (.root p .link) ++ disk.tree.walkBelow keeps 0 place p
    | .ok (.present _ _) => Walked.ifKept keeps (.root p .link)

end Disk

theorem FileTree.find?_insert_self {tree : FileTree} {place : Place} (h : place ≠ [])
    (entry : FileEntry) : (tree.insert place entry).find? place = some entry := by
  simp [find?, insert, h]

theorem FileTree.find?_insert_of_ne {tree : FileTree} {place other : Place} (h : other ≠ place)
    (entry : FileEntry) : (tree.insert place entry).find? other = tree.find? other := by
  unfold find? insert
  split
  · rfl
  · simp only [List.find?_cons, decide_eq_false (Ne.symm h), List.find?_filter]
    congr 2
    funext e
    by_cases he : e.1 = other
    · simp [he, h]
    · simp [he]

end ManifestAtlas
