import ManifestAtlas.CommandLine.Run

/-!
# The program

The command line on the real file system and the real console.  This is the
only module that acts on the world; what it does there is decided elsewhere.
-/

namespace ManifestAtlas

/-- A run of the program on the real system, which knows whether the log is shown in full. -/
abbrev Terminal := ReaderT Bool IO

/-- The number of an error of the system, which some operations report with its sign changed. -/
def errorNumber (code : UInt32) : UInt32 :=
  if 0x7FFFFFFF < code then 0 - code else code

/-- The reason why the system refused an operation. -/
def osErrorOf (e : IO.Error) : OsError :=
  match e with
  | .noFileOrDirectory .. => .noEntry
  | .alreadyExists .. => .exists
  | .inappropriateType _ code _ | .invalidArgument _ code _ =>
    match errorNumber code with
    | 20 => .notDirectory
    | 21 => .isDirectory
    | 36 => .nameTooLong
    | 40 => .tooManyLinks
    | _ => .other (toString e)
  | e => .other (toString e)

/-- Runs an operation on a path, with what the system refuses as a value. -/
def guarded {α : Type} (p : Path) (operation : IO α) : Terminal (Except OsError α) := do
  if p.text.contains '\x00' then return .error .badName
  match ← operation.toBaseIO with
  | .ok a => return .ok a
  | .error e => return .error (osErrorOf e)

/-- A path as an entry of the working directory. -/
def entryOf (p : Path) : IO.FS.DirEntry :=
  ⟨".", p.text⟩

/-- The kind of what is at a path. -/
def statusOf (p : Path) : IO FileKind := do
  let found ← (entryOf p).path.metadata
  return match found.type with
    | .dir => .directory
    | _ => .file

/-- The type of an entry, whatever a link leads to. -/
def entryTypeOf : IO.FS.FileType → EntryType
  | .file => .file
  | .dir => .directory
  | .symlink => .link
  | .other => .special

/-- Walks over a directory that lies `depth` names below the root.  Links are not followed. -/
partial def walkBelow (keeps : WalkEntry → Bool) (depth : Nat) (p : Path) :
    Terminal (List Walked) := do
  match ← guarded p (entryOf p).path.readDir with
  | .error e => return [.failure p e]
  | .ok found => return (← found.toList.mapM fun entry => visit entry.fileName).flatten
where
  /-- Looks at an entry of the directory. -/
  visit (name : String) : Terminal (List Walked) := do
    let path := p.child name
    match ← guarded path (entryOf path).path.symlinkMetadata with
    | .error e => return [.failure path e]
    | .ok found =>
      let entry : WalkEntry := ⟨path, depth + 1, entryTypeOf found.type, name⟩
      if !keeps entry then return []
      else if entry.type = .directory then
        return .entry entry :: (← walkBelow keeps (depth + 1) path)
      else return [.entry entry]

/-- Walks over what is at a path. -/
def walkAt (keeps : WalkEntry → Bool) (p : Path) : Terminal (List Walked) := do
  match ← guarded p (statusOf p), ← guarded p (entryOf p).path.symlinkMetadata with
  | .error e, _ | _, .error e => return [.failure p e]
  | .ok kind, .ok found =>
    let root := WalkEntry.root p (entryTypeOf found.type)
    if root.type = .directory && !keeps root then return []
    else if kind = .directory then
      return Walked.ifKept keeps root ++ (← walkBelow keeps 0 p)
    else return Walked.ifKept keeps root

instance : FileSystem Terminal where
  status p := guarded p (statusOf p)
  read p := guarded p (IO.FS.readBinFile p.text)
  write p text := guarded p (IO.FS.writeFile p.text text)
  makeDirectory p := guarded p (IO.FS.createDir p.text)
  walk p keeps := walkAt keeps p

instance : Console Terminal where
  emit event := do
    (← IO.getStdout).putStr event.stdout
    (← IO.getStderr).putStr (event.stderr (← read))

/-- The home directory that a line of the user database gives for the user with a number. -/
def homeInLine? (user line : String) : Option String :=
  match line.splitOn ":" with
  | _ :: _ :: number :: _ :: _ :: home :: _ => if number = user then some home else none
  | _ => none

/-- The home directory of the user who runs the program, in the user database. -/
def homeInDatabase : IO (Option String) := do
  let status ← IO.FS.readFile "/proc/self/status"
  let users ← IO.FS.readFile "/etc/passwd"
  let number? := (status.splitOn "\n").findSome? fun line =>
    match line.splitOn "\t" with
    | "Uid:" :: number :: _ => some number
    | _ => none
  return number?.bind fun number => (users.splitOn "\n").findSome? (homeInLine? number)

/-- The home directory: the environment names it, and the user database where it does not. -/
def homeDirectory : IO (Option Path) := do
  match ← IO.getEnv "HOME" with
  | none | some "" =>
    match ← homeInDatabase.toBaseIO with
    | .ok home? => return home?.map Path.mk
    | .error _ => return none
  | some home => return some ⟨home⟩

/-- The help, with a line for each command. -/
def helpText : String :=
  s!"{CommandLine.programPurpose}\n\nUsage: {CommandLine.programName} [OPTIONS] <COMMAND>\n\n" ++
  "Commands:\n" ++ String.join (CommandLine.verbNames.map fun v => s!"  {v.1}\n")

/-- A completion script that offers the names of the commands. -/
def completionScript (shell : CommandLine.Shell) : String :=
  let program := CommandLine.programName
  let names := " ".intercalate (CommandLine.verbNames.map Prod.fst)
  let quotedNames := ", ".intercalate (CommandLine.verbNames.map fun v => "'" ++ v.1 ++ "'")
  match shell with
  | .bash => s!"complete -W \"{names}\" {program}\n"
  | .elvish =>
    s!"set edit:completion:arg-completer[{program}] = \x7b|@words| put {names} \x7d\n"
  | .fish => s!"complete -c {program} -f -n __fish_use_subcommand -a \"{names}\"\n"
  | .powershell =>
    s!"Register-ArgumentCompleter -Native -CommandName '{program}' -ScriptBlock " ++
    s!"\x7b param($word) @({quotedNames}) -like \"$word*\" \x7d\n"
  | .zsh => s!"#compdef {program}\ncompadd {names}\n"

/-- The texts that stand in for those of a library. -/
def texts : CommandLine.LibraryTexts where
  help _ := helpText
  usage _ _ := "\nFor more information, try '--help'.\n"
  completionScript := completionScript

/-- What the program was started with. -/
def invocation (arguments : List String) : IO CommandLine.Invocation := do
  return {
    arguments
    manifestVariable := ← IO.getEnv "LOGICMAP_MANIFEST"
    home := ← homeDirectory
    workingDirectory := ⟨(← IO.currentDir).toString⟩
    texts }

end ManifestAtlas

/-- Runs the program, and returns its exit code. -/
def main (arguments : List String) : IO UInt32 := do
  let i ← ManifestAtlas.invocation arguments
  let code ← (ManifestAtlas.CommandLine.run i : ManifestAtlas.Terminal UInt8).run i.isVerbose
  return code.toUInt32
