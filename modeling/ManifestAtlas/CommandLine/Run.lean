import ManifestAtlas.CommandLine.Parse
import ManifestAtlas.Report.Lint
import ManifestAtlas.Report.Listing
import ManifestAtlas.Workspace.Context
import ManifestAtlas.Workspace.Write

/-!
# Running commands

Each command loads what it needs, computes its whole result, and only then
writes a file or shows anything.  A problem ends the command with exit code
one; a command line that makes no sense ends with exit code two.
-/

namespace ManifestAtlas.CommandLine

variable {m : Type → Type} [Monad m] [FileSystem m] [Console m]

/-- A command in progress, which a problem may end. -/
abbrev Action (m : Type → Type) (α : Type) := ExceptT Problem m α

/-- A step that may fail, with its failures as problems. -/
def attempt {α ε : Type} (problem : ε → Problem) (step : m (Except ε α)) : Action m α :=
  ExceptT.mk do return (← step).mapError problem

/-- Shows something. -/
def present (event : Event) : Action m Unit :=
  ExceptT.lift (Console.emit event)

/-- Adds lines to the log that only matter when something has to be tracked down. -/
def remark : List String → Action m Unit
  | [] => return ()
  | line :: lines => do
    present (.log .debug line)
    remark lines

/-- What the log says about a dependency graph. -/
def graphRemarks (graph : ModuleGraph) : List String :=
  graph.unknownDependencies.map fun (id, dependency) =>
    s!"module `{id}` depends on unknown `{dependency}`"

/-- What the log says about a flow. -/
def flowRemarks (rules : List Rule) (flow : Flow) : List String :=
  (unknownRules rules flow).map fun id => s!"step references unknown rule `{id}`"

/-- What the log says about a state machine. -/
def machineRemarks (machine : StateMachine) : List String :=
  machine.unknownStates.map fun id =>
    s!"state machine `{machine.id}` references unknown state `{id}`"

/-- What the log says about the diagrams of a module. -/
def moduleRemarks (module : Module) : List String :=
  module.flows.flatMap (flowRemarks module.rules) ++ module.stateMachines.flatMap machineRemarks

/-- Writes text to a file if one is named, and to the standard output otherwise. -/
def deliver (text : String) : Option Path → Action m Unit
  | none => present (.out text)
  | some path => do
    attempt .file (writeFile path text)
    present (.log .info s!"Wrote {path.text}")

/-- Draws the dependency graph. -/
def runDeps (context : Context) (named output : Option Path) : Action m Unit := do
  let (_, manifest) ← attempt .manifest (context.loadManifest named)
  remark (graphRemarks (ModuleGraph.build manifest))
  deliver (dependencyDiagram manifest) output

/-- Draws one flow. -/
def runFlow (context : Context) (named : Option Path) (moduleId flowId : String)
    (output : Option Path) : Action m Unit := do
  let (_, manifest) ← attempt .manifest (context.loadManifest named)
  let (module, flow) ← attempt .selection (pure (selectFlow manifest moduleId flowId))
  remark (flowRemarks module.rules flow)
  deliver (flowchart flow module.rules) output

/-- Draws one state machine. -/
def runStates (context : Context) (named : Option Path) (moduleId machineId : String)
    (output : Option Path) : Action m Unit := do
  let (_, manifest) ← attempt .manifest (context.loadManifest named)
  let (_, machine) ← attempt .selection (pure (selectStateMachine manifest moduleId machineId))
  remark (machineRemarks machine)
  deliver (stateDiagram machine) output

/-- Writes the outline. -/
def runMindmap (context : Context) (named output : Option Path) : Action m Unit := do
  let (_, manifest) ← attempt .manifest (context.loadManifest named)
  deliver (outline manifest) output

/-- The output directory when nothing else is said. -/
def defaultOutDir : Path := ⟨"diagrams"⟩

/-- Writes all diagrams. -/
def runRender (context : Context) (named outDir : Option Path) : Action m Unit := do
  let (path, manifest) ← attempt .manifest (context.loadManifest named)
  let outDir := context.workingDirectory.join
    ((outDir.or context.config.outDir).getD defaultOutDir)
  present (.log .info s!"Rendering {path.text}")
  let diagrams := renderAll manifest
  remark [s!"rendering {diagrams.length} diagrams"]
  remark (graphRemarks (ModuleGraph.build manifest))
  remark (manifest.modules.flatMap moduleRemarks)
  let written ← attempt .file (writeAll outDir diagrams)
  remark (written.map fun p => "  " ++ p.text)
  present (.out s!"Rendered {written.length} diagrams into {outDir.text}\n")

/-- Shows diagnostics, each with the place of the manifest. -/
def showDiagnostics (coloured : Bool) (place : Path) : List Diagnostic → Action m Unit
  | [] => return ()
  | d :: ds => do
    present (.err ((d.withLocation place.text).text coloured))
    showDiagnostics coloured place ds

/-- Checks a manifest. -/
def runLint (context : Context) (named : Option Path) (denyWarnings : Bool) : Action m Unit := do
  let (path, manifest) ← attempt .manifest (context.loadManifest named)
  let report := lint manifest
  remark (graphRemarks (ModuleGraph.build manifest))
  showDiagnostics context.coloured path report.diagnostics
  present (.out s!"{path.text}: {report.summary}\n")
  if (denyWarnings || context.config.denyWarnings) && !report.isClean then
    throw (.lintFailed report.summary)

/-- Lists the projects of an index. -/
def runListIndex (context : Context) (index : Path) : Action m Unit := do
  let index ← attempt .index (ProjectIndex.load (context.workingDirectory.join index))
  present (.out (indexListing index))

/-- Lists the manifests below a directory. -/
def runListScan (context : Context) (root : Path) : Action m Unit := do
  let root := context.workingDirectory.join root
  let scanned ← attempt .file (scan root)
  if scanned.isEmpty then present (.out s!"No manifests found below {root.text}\n")
  else present (.out (scanListing root scanned))

/-- Lists what can be selected from a manifest. -/
def runListCatalog (context : Context) (named : Option Path) : Action m Unit := do
  let (_, manifest) ← attempt .manifest (context.loadManifest named)
  present (.out (catalog manifest))

/-- The name of the completion script for a shell. -/
def scriptName : Shell → String
  | .bash => s!"{programName}.bash"
  | .elvish => s!"{programName}.elv"
  | .fish => s!"{programName}.fish"
  | .powershell => s!"_{programName}.ps1"
  | .zsh => s!"_{programName}"

/-- The texts of the libraries that the command line is built on, as they write them in the
environment of a run: the help on a topic, what stands below the first line about arguments that
make no sense, and the completion script for a shell. -/
structure LibraryTexts where
  help : Topic → String
  usage : (arguments : List String) → UsageError → String
  completionScript : Shell → String

/-- Writes a completion script. -/
def runCompletions (texts : LibraryTexts) (shell : Shell) : Option Path → Action m Unit
  | none => present (.out (texts.completionScript shell))
  | some directory => do
    attempt .file (ensureDirectory directory)
    let path := directory.child (scriptName shell)
    attempt (fun e => .file (.writeCompletions directory e))
      (FileSystem.write path (texts.completionScript shell))
    present (.out s!"Wrote {path.text}\n")

/-- Runs a command in its context. -/
def runCommand (texts : LibraryTexts) (context : Context) (named : Option Path) :
    Command → Action m Unit
  | .deps output => runDeps context named output
  | .flow module flow output => runFlow context named module flow output
  | .states module machine output => runStates context named module machine output
  | .mindmap output => runMindmap context named output
  | .render outDir => runRender context named outDir
  | .lint denyWarnings => runLint context named denyWarnings
  | .list (some index) _ => runListIndex context index
  | .list none (some root) => runListScan context root
  | .list none none => runListCatalog context named
  | .completions shell dir => runCompletions texts shell dir

/-- Runs a command, and returns the exit code. -/
def runWith (texts : LibraryTexts) (home : Option Path) (workingDirectory : Path)
    (globals : Globals) (command : Command) : m UInt8 := do
  let context ← Context.within home workingDirectory
  let context := { context with coloured := globals.coloured }
  match ← (runCommand texts context globals.manifest command).run with
  | .ok () => return 0
  | .error problem =>
    Console.emit (.err (problem.report globals.coloured))
    return 1

/-- What a run of the program is given: the arguments, the manifest that the environment names, the
home directory of the user, the directory to work in, and the texts of the libraries. -/
structure Invocation where
  arguments : List String
  manifestVariable : Option String
  home : Option Path
  workingDirectory : Path
  texts : LibraryTexts

/-- Whether the log is shown in full. -/
def Invocation.isVerbose (i : Invocation) : Bool :=
  match parse i.manifestVariable i.arguments with
  | .ok (.run globals _) => globals.verbose
  | _ => false

/-- Runs the program, and returns the exit code. -/
def run (i : Invocation) : m UInt8 := do
  match parse i.manifestVariable i.arguments with
  | .error error =>
    Console.emit (.err s!"{error.headline}\n{i.texts.usage i.arguments error}")
    return 2
  | .ok .version =>
    Console.emit (.out s!"{programName} {programVersion}\n")
    return 0
  | .ok (.help topic) =>
    Console.emit (.out (i.texts.help topic))
    return 0
  | .ok (.run globals command) => runWith i.texts i.home i.workingDirectory globals command

end ManifestAtlas.CommandLine
