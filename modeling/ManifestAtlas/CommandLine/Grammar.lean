import ManifestAtlas.Files.Path
import ManifestAtlas.Text.Terminal

/-!
# The grammar of the command line

The commands, the options and the positional arguments of each, and what a
usage error says.  Three options are global: they may stand in front of the
command or behind it.

Main statement: no two options have the same long form (`Opt.eq_of_long_eq`).
-/

namespace ManifestAtlas.CommandLine

/-- The name of the program. -/
def programName : String := "logicmap"

/-- The version of the program. -/
def programVersion : String := "0.1.0"

/-- What the program is for. -/
def programPurpose : String :=
  "Compile business-logic manifests into Mermaid diagrams and mind maps"

/-- The options. -/
inductive Opt where
  | verbose
  | noColor
  | manifest
  | output
  | outDir
  | denyWarnings
  | index
  | scan
  | dir
  | help
  | version
  deriving DecidableEq, Repr

/-- The long form of an option. -/
def Opt.long : Opt → String
  | .verbose => "verbose"
  | .noColor => "no-color"
  | .manifest => "manifest"
  | .output => "output"
  | .outDir => "out-dir"
  | .denyWarnings => "deny-warnings"
  | .index => "index"
  | .scan => "scan"
  | .dir => "dir"
  | .help => "help"
  | .version => "version"

/-- The letter of an option, if it has one. -/
def Opt.letter? : Opt → Option Char
  | .verbose => some 'v'
  | .manifest => some 'm'
  | .output => some 'o'
  | .help => some 'h'
  | .version => some 'V'
  | _ => none

/-- What the value of an option is called, if it takes one. -/
def Opt.valueName? : Opt → Option String
  | .manifest => some "MANIFEST"
  | .output => some "OUTPUT"
  | .outDir => some "OUT_DIR"
  | .index => some "INDEX"
  | .scan => some "SCAN"
  | .dir => some "DIR"
  | _ => none

/-- An option as it is shown. -/
def Opt.display (o : Opt) : String :=
  match o.valueName? with
  | some name => s!"--{o.long} <{name}>"
  | none => s!"--{o.long}"

/-- The positional arguments. -/
inductive Positional where
  | module
  | flow
  | machine
  | shell
  deriving DecidableEq, Repr

/-- A positional argument as it is shown. -/
def Positional.display : Positional → String
  | .module => "<MODULE>"
  | .flow => "<FLOW>"
  | .machine => "<MACHINE>"
  | .shell => "<SHELL>"

/-- The shells that completions can be written for. -/
inductive Shell where
  | bash
  | elvish
  | fish
  | powershell
  | zsh
  deriving DecidableEq, Repr

/-- The shell with a name. -/
def Shell.ofName? : String → Option Shell
  | "bash" => some .bash
  | "elvish" => some .elvish
  | "fish" => some .fish
  | "powershell" => some .powershell
  | "zsh" => some .zsh
  | _ => none

/-- The commands by name. -/
inductive Verb where
  | deps
  | flow
  | states
  | mindmap
  | render
  | lint
  | list
  | completions
  deriving DecidableEq, Repr

/-- The names of the commands. -/
def verbNames : List (String × Verb) :=
  [("deps", .deps), ("flow", .flow), ("states", .states), ("mindmap", .mindmap),
    ("render", .render), ("lint", .lint), ("list", .list), ("completions", .completions)]

/-- The command with a name. -/
def Verb.ofName? (name : String) : Option Verb :=
  (verbNames.find? fun v => v.1 = name).map Prod.snd

/-- What help can be asked for: the program, one of its commands, or the help itself. -/
inductive Topic where
  | program
  | command (verb : Verb)
  | help
  deriving DecidableEq, Repr

/-- The topic with a name. -/
def Topic.ofName? (name : String) : Option Topic :=
  if name = "help" then some .help else (Verb.ofName? name).map .command

/-- The options that may stand anywhere. -/
def globalOptions : List Opt :=
  [.verbose, .noColor, .manifest, .help]

/-- The options that may stand in front of the command, or behind it. -/
def optionsOf : Option Verb → List Opt
  | none => .version :: globalOptions
  | some .deps | some .flow | some .states | some .mindmap => .output :: globalOptions
  | some .render => .outDir :: globalOptions
  | some .lint => .denyWarnings :: globalOptions
  | some .list => .index :: .scan :: globalOptions
  | some .completions => .dir :: globalOptions

/-- The positional arguments of a command, all of which are required. -/
def positionalsOf : Option Verb → List Positional
  | some .flow => [.module, .flow]
  | some .states => [.module, .machine]
  | some .completions => [.shell]
  | _ => []

/-- A command line that the program does not understand. -/
inductive UsageError where
  | unknownArgument (argument : String)
  | unknownCommand (name : String)
  | missingValue (argument : String)
  | invalidValue (value argument : String)
  | unneededValue (value argument : String)
  | repeated (argument : String)
  | conflict (argument other : String)
  | missingArguments
  | missingCommand
  | nothingGiven
  deriving DecidableEq, Repr

/-- The first line that is shown for a usage error.  Of what was typed it repeats only what is
visible. -/
def UsageError.headline : UsageError → String
  | .unknownArgument argument => s!"error: unexpected argument '{visible argument}' found"
  | .unknownCommand name => s!"error: unrecognized subcommand '{visible name}'"
  | .missingValue argument => s!"error: a value is required for '{argument}' but none was supplied"
  | .invalidValue value argument => s!"error: invalid value '{visible value}' for '{argument}'"
  | .unneededValue value argument =>
    s!"error: unexpected value '{visible value}' for '{argument}' found; no more were expected"
  | .repeated argument => s!"error: the argument '{argument}' cannot be used multiple times"
  | .conflict argument other =>
    s!"error: the argument '{argument}' cannot be used with '{other}'"
  | .missingArguments => "error: the following required arguments were not provided:"
  | .missingCommand => s!"error: '{programName}' requires a subcommand but one was not provided"
  | .nothingGiven => programPurpose

theorem Opt.eq_of_long_eq {a b : Opt} (h : a.long = b.long) : a = b := by
  cases a <;> cases b <;> first | rfl | exact absurd h (by decide)

end ManifestAtlas.CommandLine
