import ManifestAtlas.CommandLine.Grammar

/-!
# Reading the command line

Arguments are read from left to right, first those in front of the command,
then those behind it.  The value of an option may be attached to it, or be the
next argument.  It is checked when the next option or positional argument comes
up, or at the end; that order decides which of several errors is reported.

Main statement: every option that a command takes is found by its long form
(`findLong?_long`).
-/

namespace ManifestAtlas.CommandLine

/-- The options that are the same for every command. -/
structure Globals where
  verbose : Bool
  coloured : Bool
  manifest : Option Path
  deriving DecidableEq, Repr

/-- A command with its arguments. -/
inductive Command where
  | deps (output : Option Path)
  | flow (module flow : String) (output : Option Path)
  | states (module machine : String) (output : Option Path)
  | mindmap (output : Option Path)
  | render (outDir : Option Path)
  | lint (denyWarnings : Bool)
  | list (index scan : Option Path)
  | completions (shell : Shell) (dir : Option Path)
  deriving DecidableEq, Repr

/-- What a command line asks for. -/
inductive Request where
  | run (globals : Globals) (command : Command)
  | version
  | help (topic : Topic)
  deriving DecidableEq, Repr

/-- Why reading ended early: an option that asks for information only, or an error. -/
inductive Interruption where
  | version
  | help (topic : Topic)
  | usage (error : UsageError)
  deriving DecidableEq, Repr

/-- What ends the reading behind the name of a command.  Help that is asked for there is help on the
command. -/
def Interruption.behind (verb : Verb) : Interruption → Interruption
  | .help _ => .help (.command verb)
  | interruption => interruption

/-- An argument whose value has still to be checked. -/
inductive Pending where
  | option (o : Opt) (value : Option String)
  | positional (p : Positional) (value : String)
  deriving DecidableEq, Repr

/-- What was read so far, in front of the command or behind it. -/
structure Progress where
  given : List (Opt × String)
  positionals : List String
  pending : Option Pending
  trailing : Bool
  deriving DecidableEq, Repr

namespace Progress

/-- Nothing read so far. -/
def start : Progress :=
  ⟨[], [], none, false⟩

/-- Whether the last option still waits for its value. -/
def isAwaiting (s : Progress) : Bool :=
  match s.pending with
  | some (.option _ none) => !s.trailing
  | _ => false

/-- Adds an option, unless it is there already. -/
def record (s : Progress) (o : Opt) (value : String) : Except Interruption Progress :=
  if s.given.any fun g => g.1 = o then .error (.usage (.repeated o.display))
  else .ok { s with given := s.given ++ [(o, value)] }

/-- Adds an option with its value, which may not be empty. -/
def recordValue (s : Progress) (o : Opt) (value : String) : Except Interruption Progress := do
  let s ← s.record o value
  if value.isEmpty then .error (.usage (.missingValue o.display)) else .ok s

/-- Adds a positional argument.  The name of a shell must be a known one. -/
def recordPositional (s : Progress) (p : Positional) (value : String) :
    Except Interruption Progress :=
  if p = .shell ∧ (Shell.ofName? value).isNone then
    if value.isEmpty then .error (.usage (.missingValue p.display))
    else .error (.usage (.invalidValue value p.display))
  else .ok { s with positionals := s.positionals ++ [value] }

/-- Checks the pending argument. -/
def settle (s : Progress) : Except Interruption Progress :=
  let settled := { s with pending := none }
  match s.pending with
  | none => .ok settled
  | some (.option o none) => .error (.usage (.missingValue o.display))
  | some (.option o (some value)) => settled.recordValue o value
  | some (.positional p value) => settled.recordPositional p value

/-- Takes an option without a value. -/
def flag (s : Progress) (o : Opt) : Except Interruption Progress := do
  let s ← s.settle
  match o with
  | .help => .error (.help .program)
  | .version => .error .version
  | o => s.record o ""

/-- Takes an option with a value: the attached one, or else the next argument. -/
def option (s : Progress) (o : Opt) (attached : Option String) : Except Interruption Progress := do
  let s ← s.settle
  match attached with
  | some value => s.recordValue o value
  | none => .ok { s with pending := some (.option o none) }

end Progress

/-- The option with a long form. -/
def findLong? (options : List Opt) (name : String) : Option Opt :=
  options.find? fun o => o.long = name

/-- The option with a letter. -/
def findLetter? (options : List Opt) (c : Char) : Option Opt :=
  options.find? fun o => o.letter? = some c

/-- Takes a long option, given what follows the two dashes. -/
def takeLong (options : List Opt) (s : Progress) (body : List Char) :
    Except Interruption Progress :=
  let name := String.ofList (body.takeWhile (· != '='))
  let attached := match body.dropWhile (· != '=') with
    | [] => none
    | _ :: value => some (String.ofList value)
  match findLong? options name with
  | none => .error (.usage (.unknownArgument ("--" ++ name)))
  | some o =>
    if o.valueName?.isSome then s.option o attached
    else
      match attached with
      | some value => .error (.usage (.unneededValue value o.display))
      | none => s.flag o

/-- Takes the options whose letters follow a single dash.  What follows the letter of an option
with a value is its value. -/
def takeLetters (options : List Opt) (s : Progress) : List Char → Except Interruption Progress
  | [] => .ok s
  | c :: rest =>
    match findLetter? options c with
    | none => .error (.usage (.unknownArgument (String.ofList ['-', c])))
    | some o =>
      if o.valueName?.isSome then
        match rest with
        | [] => s.option o none
        | '=' :: value => s.option o (some (String.ofList value))
        | value => s.option o (some (String.ofList value))
      else do takeLetters options (← s.flag o) rest

/-- How an argument looks. -/
inductive Shape where
  | escape
  | long (body : List Char)
  | letters (body : List Char)
  | plain

/-- The look of an argument. -/
def shapeOf (argument : String) : Shape :=
  match argument.toList with
  | ['-', '-'] => .escape
  | '-' :: '-' :: body => .long body
  | '-' :: c :: body => .letters (c :: body)
  | _ => .plain

/-- Takes a positional argument. -/
def takePositional (verb : Option Verb) (s : Progress) (argument : String) :
    Except Interruption Progress :=
  let taken := s.positionals.length + match s.pending with
    | some (.positional _ _) => 1
    | _ => 0
  match (positionalsOf verb)[taken]? with
  | some p => do
    let s ← s.settle
    .ok { s with pending := some (.positional p argument) }
  | none =>
    match verb with
    | some _ => .error (.usage (.unknownArgument argument))
    | none =>
      if (Verb.ofName? argument).isSome || argument == "help" then
        .error (.usage (.unknownArgument argument))
      else .error (.usage (.unknownCommand argument))

/-- Takes an argument that does not name a command. -/
def takeArgument (verb : Option Verb) (s : Progress) (argument : String) :
    Except Interruption Progress :=
  if s.trailing then takePositional verb s argument
  else
    match shapeOf argument with
    | .escape => .ok { s with trailing := true }
    | .long body => takeLong (optionsOf verb) s body
    | .letters body => takeLetters (optionsOf verb) s body
    | .plain =>
      match s.pending with
      | some (.option o none) => .ok { s with pending := some (.option o (some argument)) }
      | _ => takePositional verb s argument

/-- Reads arguments to the end. -/
def takeAll (verb : Verb) (s : Progress) : List String → Except Interruption Progress
  | [] => .ok s
  | argument :: rest => do takeAll verb (← takeArgument (some verb) s argument) rest

/-- The manifest that the environment names, unless the command line names one. -/
def addEnvironment (environment : Option String) (s : Progress) : Except Interruption Progress :=
  match environment with
  | some "" =>
    if s.given.any fun g => g.1 = .manifest then .ok s
    else .error (.usage (.missingValue Opt.manifest.display))
  | _ => .ok s

/-- The value of an option. -/
def valueOf? (o : Opt) (given : List (Opt × String)) : Option Path :=
  (given.find? fun g => g.1 = o).map fun g => ⟨g.2⟩

/-- Whether an option was given. -/
def isGiven (o : Opt) (given : List (Opt × String)) : Bool :=
  given.any fun g => g.1 = o

/-- Refuses options that exclude each other. -/
def checkConflicts (given : List (Opt × String)) : Except Interruption Unit :=
  match given.filterMap fun g => if g.1 = .index ∨ g.1 = .scan then some g.1 else none with
  | a :: b :: _ => .error (.usage (.conflict a.display b.display))
  | _ => .ok ()

/-- The command that a name and its arguments make up. -/
def commandOf (verb : Verb) (s : Progress) : Except Interruption Command :=
  let output := valueOf? .output s.given
  match verb, s.positionals with
  | .deps, _ => .ok (.deps output)
  | .mindmap, _ => .ok (.mindmap output)
  | .render, _ => .ok (.render (valueOf? .outDir s.given))
  | .lint, _ => .ok (.lint (isGiven .denyWarnings s.given))
  | .list, _ => .ok (.list (valueOf? .index s.given) (valueOf? .scan s.given))
  | .flow, [module, flow] => .ok (.flow module flow output)
  | .states, [module, machine] => .ok (.states module machine output)
  | .completions, [name] =>
    match Shell.ofName? name with
    | some shell => .ok (.completions shell (valueOf? .dir s.given))
    | none => .error (.usage (.invalidValue name Positional.shell.display))
  | _, _ => .error (.usage .missingArguments)

/-- Reads the arguments behind the name of a command. -/
def parseCommand (environment : Option String) (verb : Verb) (arguments : List String) :
    Except Interruption (Progress × Command) := do
  let s ← takeAll verb .start arguments
  let s ← s.settle
  let s ← addEnvironment environment s
  checkConflicts s.given
  let command ← commandOf verb s
  .ok (s, command)

/-- The global options from both sides of the command.  What is behind the command counts for
more, and both count for more than the environment. -/
def globalsOf (environment : Option String) (front back : List (Opt × String)) : Globals where
  verbose := isGiven .verbose front || isGiven .verbose back
  coloured := !(isGiven .noColor front || isGiven .noColor back)
  manifest :=
    ((valueOf? .manifest back).or (valueOf? .manifest front)).or (environment.map Path.mk)

/-- Reads the arguments behind `help`, which may name one command.  Whatever they look like, they
are taken as names. -/
def helpTopic : List String → Except Interruption Request
  | [] => .ok (.help .program)
  | name :: rest =>
    match Topic.ofName? name, rest with
    | none, _ => .error (.usage (.unknownCommand name))
    | some topic, [] => .ok (.help topic)
    | some _, more :: _ => .error (.usage (.unknownCommand more))

/-- Reads arguments from the front, up to the end of the command line. -/
def parseFrom (environment : Option String) (s : Progress) :
    List String → Except Interruption Request
  | [] => do
    let s ← s.settle
    let s ← addEnvironment environment s
    if s.given.isEmpty && environment.isNone then .error (.usage .nothingGiven)
    else .error (.usage .missingCommand)
  | argument :: rest =>
    if s.trailing || s.isAwaiting then do
      parseFrom environment (← takeArgument none s argument) rest
    else if argument == "help" then helpTopic rest
    else
      match Verb.ofName? argument with
      | none => do parseFrom environment (← takeArgument none s argument) rest
      | some verb => do
        let (back, command) ← (parseCommand environment verb rest).mapError (.behind verb)
        let front ← s.settle
        let front ← addEnvironment environment front
        .ok (.run (globalsOf environment front.given back.given) command)

/-- Reads a command line.  The environment may name a manifest. -/
def parse (environment : Option String) (arguments : List String) :
    Except UsageError Request :=
  match parseFrom environment .start arguments with
  | .ok request => .ok request
  | .error .version => .ok .version
  | .error (.help topic) => .ok (.help topic)
  | .error (.usage error) => .error error

theorem findLong?_long {options : List Opt} {o : Opt} (h : o ∈ options) :
    findLong? options o.long = some o := by
  unfold findLong?
  cases hf : options.find? fun other => other.long = o.long with
  | none => simpa using List.find?_eq_none.1 hf o h
  | some found =>
    have hlong := List.find?_some hf
    rw [Opt.eq_of_long_eq (of_decide_eq_true hlong)]

end ManifestAtlas.CommandLine
