import ManifestAtlas.Files.FileTree
import ManifestAtlas.Text.Terminal

/-!
# Events and sessions

What a program shows goes out as events: lines of its log, text on the standard
output and text on the standard error output.  Which lines of the log are shown
is decided when the events are written.

A `Session` is a run over a plain file tree, with the events so far.  It is the
file system and the console of the monad `StateM Session`.

Main statement: events are kept in order (`emit_events`).
-/

namespace ManifestAtlas

/-- How important a line of the log is. -/
inductive Level where
  | debug
  | info
  | warn
  deriving DecidableEq, Repr

/-- Something that a program shows. -/
inductive Event where
  | log (level : Level) (text : String)
  | out (text : String)
  | err (text : String)
  deriving DecidableEq, Repr

/-- The mark of a level at the start of a line. -/
def Level.mark : Level → String
  | .debug => "DEBUG"
  | .info => " INFO"
  | .warn => " WARN"

/-- Whether lines of a level are shown. -/
def Level.isShown (verbose : Bool) : Level → Bool
  | .debug => verbose
  | _ => true

/-- What an event adds to the standard output. -/
def Event.stdout : Event → String
  | .out text => text
  | _ => ""

/-- What an event adds to the standard error output.  The log spells out what could steer a
terminal. -/
def Event.stderr (verbose : Bool) : Event → String
  | .log level text => if level.isShown verbose then s!"{level.mark} {spelledOut text}\n" else ""
  | .out _ => ""
  | .err text => text

/-- A place where events go. -/
class Console (m : Type → Type) where
  emit : Event → m Unit

namespace Console

variable {m : Type → Type} [Console m]

/-- A line of the log. -/
def log (level : Level) (text : String) : m Unit :=
  emit (.log level text)

end Console

/-- A run over a file tree. -/
structure Session where
  disk : Disk
  events : List Event

namespace Session

/-- A run that has not shown anything yet. -/
def start (disk : Disk) : Session :=
  ⟨disk, []⟩

/-- Changes the disk, unless the change is refused. -/
def attempt (change : Disk → Except OsError Disk) : StateM Session (Except OsError Unit) := do
  let s ← get
  match change s.disk with
  | .ok disk =>
    set { s with disk }
    return .ok ()
  | .error e => return .error e

instance : FileSystem (StateM Session) where
  status p := return (← get).disk.status p
  read p := return (← get).disk.read p
  write p text := attempt (·.write p text)
  makeDirectory p := attempt (·.makeDirectory p)
  walk p keeps := return (← get).disk.walk p keeps

/-- Adds an event. -/
def emit (event : Event) : StateM Session Unit :=
  modify fun s => { s with events := s.events ++ [event] }

instance : Console (StateM Session) where
  emit := emit

/-- The standard output so far. -/
def stdout (s : Session) : String :=
  String.join (s.events.map Event.stdout)

/-- The standard error output so far. -/
def stderr (s : Session) (verbose : Bool) : String :=
  String.join (s.events.map (Event.stderr verbose))

theorem emit_events (event : Event) (s : Session) :
    ((emit event).run s).2.events = s.events ++ [event] := rfl

/-! ## Runs -/

/-- Two steps run one after the other. -/
theorem run_bind {α β : Type} (step : StateM Session α) (next : α → StateM Session β)
    (s : Session) : (step >>= next).run s = (next (step.run s).1).run (step.run s).2 := rfl

theorem run_attempt (change : Disk → Except OsError Disk) (s : Session) :
    (attempt change).run s =
      match change s.disk with
      | .ok disk => (.ok (), { s with disk })
      | .error e => (.error e, s) := by
  have hget : (get : StateM Session Session).run s = (s, s) := rfl
  rw [attempt, run_bind, hget]
  dsimp only
  cases change s.disk <;> rfl

theorem run_makeDirectory (p : Path) (s : Session) :
    (FileSystem.makeDirectory p : StateM Session (Except OsError Unit)).run s =
      match s.disk.makeDirectory p with
      | .ok disk => (.ok (), { s with disk })
      | .error e => (.error e, s) :=
  run_attempt _ s

theorem run_write (p : Path) (text : String) (s : Session) :
    (FileSystem.write p text : StateM Session (Except OsError Unit)).run s =
      match s.disk.write p text with
      | .ok disk => (.ok (), { s with disk })
      | .error e => (.error e, s) :=
  run_attempt _ s

theorem run_isPresent (p : Path) (s : Session) :
    (FileSystem.isPresent p : StateM Session Bool).run s = ((s.disk.status p).isOk, s) := rfl

theorem run_isDirectory (p : Path) (s : Session) :
    (FileSystem.isDirectory p : StateM Session Bool).run s =
      (match s.disk.status p with
        | .ok .directory => true
        | _ => false, s) := rfl

end Session

end ManifestAtlas
