import ManifestAtlas.Proofs.CleanLint
import ManifestAtlas.Proofs.CommandManifests
import ManifestAtlas.Proofs.Suggestions

/-!
# Commands that leave the files alone

A command computes whatever can fail before it writes anything.  So there are
two ways for a run to leave the file tree as it is.

* The command only looks at files: `leaves_disk_runCommand` goes through the
  commands, each of which is a sequence of reading steps (`Session.Leaves`).
* The command draws a manifest, but a problem ends it first: `Refuses` is kept
  by whatever would come after the problem (`Refuses.bind`), so only the loading
  and the selection count (`refuses_runCommand`).

`run_runWith` leads from a command to a whole run, and `commands_leave_files` is
what both come to for every command line that the program understands.
-/

namespace ManifestAtlas

/-- A manifest lacks a part: it has no such module, or the first such module has no such part. -/
def Manifest.LacksPart {β : Type} (manifest : Manifest) (parts : Module → List β)
    (key : β → String) (moduleId partId : String) : Prop :=
  moduleId ∉ manifest.modules.map Module.id ∨
    ∃ module, IsFirst Module.id manifest.modules moduleId module ∧ partId ∉ (parts module).map key

theorem exists_selectPart_error {β : Type} {manifest : Manifest} {parts : Module → List β}
    {key : β → String} {unknownPart : List String → SelectError} {moduleId partId : String}
    (h : manifest.LacksPart parts key moduleId partId) :
    ∃ e, selectPart manifest parts key unknownPart moduleId partId = .error e := by
  rcases h with hmodule | ⟨module, hfirst, hpart⟩
  · exact ⟨_, selectPart_eq_error_iff.2 (.inl ⟨hmodule, rfl⟩)⟩
  · exact ⟨_, selectPart_eq_error_iff.2 (.inr ⟨module, hfirst, hpart, rfl⟩)⟩

namespace CommandLine

open Session

/-! ## What commands ask for -/

/-- A command only looks at files. -/
def Command.IsReadOnly : Command → Prop
  | .lint _ | .list _ _ => True
  | .deps output | .flow _ _ output | .states _ _ output | .mindmap output => output = none
  | .render _ | .completions _ _ => False

/-- A command line that asks for information only, or for a command that only looks at files. -/
def Request.IsReadOnly : Request → Prop
  | .run _ command => command.IsReadOnly
  | .version | .help _ => True

/-- A command draws what a manifest describes. -/
def Command.Draws : Command → Prop
  | .deps _ | .flow _ _ _ | .states _ _ _ | .mindmap _ | .render _ => True
  | .lint _ | .list _ _ | .completions _ _ => False

/-- A command asks for a module, a flow or a state machine that the manifest lacks. -/
def Command.AsksInVain (manifest : Manifest) : Command → Prop
  | .flow moduleId flowId _ => manifest.LacksPart Module.flows Flow.id moduleId flowId
  | .states moduleId machineId _ =>
    manifest.LacksPart Module.stateMachines StateMachine.id moduleId machineId
  | _ => False

/-- The manifest of a command cannot be located, read or decoded, or what the command asks for is
not in it. -/
def Command.IsHopeless (disk : Disk) (home : Option Path) (directory : Path)
    (named : Option Path) (command : Command) : Prop :=
  match disk.commandManifest home directory named with
  | .error _ => True
  | .ok (_, manifest) => command.AsksInVain manifest

/-! ## Commands that only look -/

section

variable {α β : Type} {context : Context} {named : Option Path} {command : Command} {s : Session}

theorem leaves_loadForCommand (context : Context) (named : Option Path) :
    Leaves products (attempt .manifest (context.loadManifest named) :
      Action (StateM Session) (Path × Manifest)).run :=
  leaves_attempt _ (leaves_loadManifest context named)

theorem leaves_disk_show (text : String) :
    Leaves Session.disk (present (.out text) : Action (StateM Session) Unit).run :=
  leaves_present (leaves_disk_emit _)

/-- A command that only looks at files leaves them as they are, however it ends. -/
theorem leaves_disk_runCommand (texts : LibraryTexts) (h : command.IsReadOnly) :
    Leaves Session.disk
      (runCommand texts context named command : Action (StateM Session) Unit).run := by
  have hload := (leaves_loadForCommand context named).disk
  have hselect : ∀ {γ : Type} (selected : Except SelectError γ), Leaves Session.disk
      (attempt .selection (pure selected) : Action (StateM Session) γ).run :=
    fun selected => leaves_attempt _ (.pure _)
  cases command with
  | deps output =>
    obtain rfl : output = none := h
    exact leaves_run_bind hload fun _ => leaves_run_bind (leaves_remark _).disk fun _ =>
      leaves_disk_show _
  | flow module flow output =>
    obtain rfl : output = none := h
    exact leaves_run_bind hload fun _ => leaves_run_bind (hselect _) fun _ =>
      leaves_run_bind (leaves_remark _).disk fun _ => leaves_disk_show _
  | states module machine output =>
    obtain rfl : output = none := h
    exact leaves_run_bind hload fun _ => leaves_run_bind (hselect _) fun _ =>
      leaves_run_bind (leaves_remark _).disk fun _ => leaves_disk_show _
  | mindmap output =>
    obtain rfl : output = none := h
    exact leaves_run_bind hload fun _ => leaves_disk_show _
  | render outDir => exact absurd h id
  | lint denyWarnings =>
    rw [runCommand, runLint]
    refine leaves_run_bind hload fun loaded => leaves_run_bind (leaves_remark _).disk fun _ =>
      leaves_run_bind (leaves_showDiagnostics _ _ _).disk fun _ =>
      leaves_run_bind (leaves_disk_show _) fun _ => ?_
    split <;> exact .pure _
  | list index root =>
    cases index with
    | some index =>
      exact leaves_run_bind (leaves_attempt _ (leaves_loadIndex _)) fun _ => leaves_disk_show _
    | none =>
      cases root with
      | some root =>
        rw [runCommand, runListScan]
        refine leaves_run_bind (leaves_attempt _ (leaves_scan _).disk) fun scanned => ?_
        split <;> exact leaves_disk_show _
      | none => exact leaves_run_bind hload fun _ => leaves_disk_show _
  | completions shell dir => exact absurd h id

/-! ## Commands that a problem ends -/

/-- A command in progress is ended by a problem, and the products of the session are as before. -/
def Refuses (action : Action (StateM Session) α) (s : Session) : Prop :=
  (∃ problem, (action.run.run s).1 = .error problem) ∧ (action.run.run s).2.products = s.products

namespace Refuses

variable {action : Action (StateM Session) α} {next : α → Action (StateM Session) β}

theorem bind (h : Refuses action s) : Refuses (action >>= next) s := by
  obtain ⟨⟨problem, herror⟩, hproducts⟩ := h
  rw [Refuses, ExceptT.run_bind, run_bind, herror]
  exact ⟨⟨problem, rfl⟩, hproducts⟩

theorem bind_of_ok {a : α} (h : Leaves products action.run) (hok : (action.run.run s).1 = .ok a)
    (hnext : ∀ t : Session, t.products = s.products → Refuses (next a) t) :
    Refuses (action >>= next) s := by
  rw [Refuses, run_bind_of_ok hok]
  obtain ⟨herror, hproducts⟩ := hnext _ (h s)
  exact ⟨herror, hproducts.trans (h s)⟩

end Refuses

/-- A selection that fails ends a command. -/
theorem refuses_select {selected : Except SelectError α} (h : ∃ e, selected = .error e) :
    Refuses (attempt .selection (pure selected) : Action (StateM Session) α) s := by
  obtain ⟨e, rfl⟩ := h
  exact ⟨⟨.selection e, rfl⟩, rfl⟩

section

variable {home : Option Path} {directory : Path} (coloured : Bool)

/-- What a command would do with a manifest does not matter when there is none. -/
theorem refuses_load {problem : ManifestProblem}
    (h : s.disk.commandManifest home directory named = .error problem) :
    Refuses (attempt .manifest ((s.disk.contextOf home directory coloured).loadManifest named) :
      Action (StateM Session) (Path × Manifest)) s := by
  have hload := run_attempt_loadManifest (s := s) home directory coloured named
  rw [h] at hload
  exact ⟨⟨.manifest problem, hload⟩, leaves_loadForCommand _ _ s⟩

theorem refuses_load_bind {loaded : Path × Manifest}
    {next : Path × Manifest → Action (StateM Session) β}
    (h : s.disk.commandManifest home directory named = .ok loaded)
    (hnext : ∀ t : Session, t.products = s.products → Refuses (next loaded) t) :
    Refuses (attempt .manifest ((s.disk.contextOf home directory coloured).loadManifest named) >>=
      next) s := by
  have hload := run_attempt_loadManifest (s := s) home directory coloured named
  rw [h] at hload
  exact .bind_of_ok (leaves_loadForCommand _ _) hload hnext

/-- A drawing command without its manifest, or without what it asks for, is ended before it has
changed or printed anything. -/
theorem refuses_runCommand (texts : LibraryTexts) (hdraws : command.Draws)
    (h : command.IsHopeless s.disk home directory named) :
    Refuses (runCommand texts (s.disk.contextOf home directory coloured) named command) s := by
  rw [Command.IsHopeless] at h
  cases hload : s.disk.commandManifest home directory named with
  | error problem =>
    have hrefuses := refuses_load coloured hload
    cases command with
    | deps output | flow moduleId flowId output | states moduleId machineId output | mindmap output
    | render outDir => exact hrefuses.bind
    | lint denyWarnings | list index root | completions shell dir => exact absurd hdraws id
  | ok loaded =>
    obtain ⟨path, manifest⟩ := loaded
    rw [hload] at h
    cases command with
    | flow moduleId flowId output =>
      refine refuses_load_bind coloured hload fun t _ => (refuses_select ?_).bind
      rw [selectFlow_eq]
      exact exists_selectPart_error h
    | states moduleId machineId output =>
      refine refuses_load_bind coloured hload fun t _ => (refuses_select ?_).bind
      rw [selectStateMachine_eq]
      exact exists_selectPart_error h
    | _ => exact absurd h id

end

end

/-! ## Whole runs -/

theorem leaves_disk_run {i : Invocation} {request : Request}
    (hparse : parse i.manifestVariable i.arguments = .ok request) (h : request.IsReadOnly) :
    Leaves Session.disk (run i : StateM Session UInt8) := by
  rw [run, hparse]
  cases request with
  | version => exact (leaves_disk_emit _).bind fun _ => .pure _
  | help topic => exact (leaves_disk_emit _).bind fun _ => .pure _
  | run globals command =>
    refine (leaves_within _ _).disk.bind fun context =>
      Leaves.bind (leaves_disk_runCommand i.texts h) fun outcome => ?_
    cases outcome with
    | ok => exact .pure _
    | error problem => exact (leaves_disk_emit _).bind fun _ => .pure _

theorem run_of_parse {i : Invocation} {globals : Globals} {command : Command}
    (hparse : parse i.manifestVariable i.arguments = .ok (.run globals command)) :
    (run i : StateM Session UInt8) =
      runWith i.texts i.home i.workingDirectory globals command := by
  rw [run, hparse]

/-- A run carries out its command in the context that the disk gives, with the files and the output
that it was started with. -/
theorem run_runWith (texts : LibraryTexts) (home : Option Path) (directory : Path)
    (globals : Globals) (command : Command) (s : Session) : ∃ t : Session, t.products = s.products ∧
      (runWith texts home directory globals command : StateM Session UInt8).run s =
        match (runCommand texts (s.disk.contextOf home directory globals.coloured)
          globals.manifest command : Action (StateM Session) Unit).run.run t with
        | (.ok (), u) => (0, u)
        | (.error problem, u) =>
          (1, ((Console.emit (.err (problem.report globals.coloured)) :
            StateM Session Unit).run u).2) := by
  refine ⟨((Context.within home directory : StateM Session Context).run s).2,
    leaves_within home directory s, ?_⟩
  have hcontext : { (⟨directory, true, s.disk.mergedConfig (home.map Config.fileOf) directory⟩ :
      Context) with coloured := globals.coloured } =
        s.disk.contextOf home directory globals.coloured := rfl
  rw [runWith, run_bind, run_within]
  dsimp only
  rw [hcontext, run_bind]
  generalize (runCommand texts (s.disk.contextOf home directory globals.coloured)
    globals.manifest command : Action (StateM Session) Unit).run.run
      ((Context.within home directory : StateM Session Context).run s).2 = ended
  obtain ⟨outcome, u⟩ := ended
  cases outcome <;> rfl

/-- Every command line that the program understands and that does not name an output leaves all
files as they are.  A drawing command whose manifest cannot be located, read or decoded, or which
asks for something that the manifest lacks, exits with 1; it changes no file, also when an output
is named, and prints nothing on the standard output. -/
theorem commands_leave_files {i : Invocation} {request : Request} (s : Session)
    (hparse : parse i.manifestVariable i.arguments = .ok request) :
    (request.IsReadOnly → ((run i : StateM Session UInt8).run s).2.disk = s.disk) ∧
    ∀ globals command, request = .run globals command → command.Draws →
      command.IsHopeless s.disk i.home i.workingDirectory globals.manifest →
      ((run i : StateM Session UInt8).run s).1 = 1 ∧
        ((run i : StateM Session UInt8).run s).2.disk = s.disk ∧
        ((run i : StateM Session UInt8).run s).2.stdout = s.stdout := by
  refine ⟨fun h => leaves_disk_run hparse h s, fun globals command hrequest hdraws hhopeless => ?_⟩
  subst hrequest
  obtain ⟨t, ht, hrun⟩ := run_runWith i.texts i.home i.workingDirectory globals command s
  have hdisk : t.disk = s.disk := congrArg Prod.fst ht
  rw [← hdisk] at hhopeless
  obtain ⟨⟨problem, herror⟩, hproducts⟩ :=
    refuses_runCommand globals.coloured i.texts hdraws hhopeless
  rw [hdisk] at herror hproducts
  rw [run_of_parse hparse, hrun]
  generalize (runCommand i.texts (s.disk.contextOf i.home i.workingDirectory globals.coloured)
    globals.manifest command : Action (StateM Session) Unit).run.run t = ended
    at herror hproducts ⊢
  obtain ⟨outcome, u⟩ := ended
  obtain rfl : outcome = .error problem := herror
  have hu : ((Console.emit (.err (problem.report globals.coloured)) :
      StateM Session Unit).run u).2.products = s.products :=
    (leaves_products_emit rfl u).trans (hproducts.trans ht)
  exact ⟨rfl, congrArg Prod.fst hu, congrArg Prod.snd hu⟩

/-- Texts of libraries that have nothing to say. -/
def silentTexts : LibraryTexts :=
  ⟨fun _ => "", fun _ _ => "", fun _ => ""⟩

/-- A run of the program in the project's directory. -/
def shopInvocation (arguments : List String) : Invocation :=
  ⟨arguments, none, none, ⟨"/shop"⟩, silentTexts⟩

/-- The lint changes nothing, and a flow that the manifest lacks is not drawn over an old one. -/
theorem storedDisk_keeps_old_diagram :
    ((run (shopInvocation ["lint", "-m", "manifest.json"]) : StateM Session UInt8).run
      (.start (storedDisk orderManifest))).2.disk = storedDisk orderManifest ∧
    ((run (shopInvocation ["flow", "order", "refund", "-m", "manifest.json", "-o", "old.mmd"]) :
      StateM Session UInt8).run (.start (storedDisk orderManifest))).1 = 1 ∧
    ((run (shopInvocation ["flow", "order", "refund", "-m", "manifest.json", "-o", "old.mmd"]) :
      StateM Session UInt8).run (.start (storedDisk orderManifest))).2.disk =
        storedDisk orderManifest := by
  have hlint : parse none ["lint", "-m", "manifest.json"] =
      .ok (.run ⟨false, true, some ⟨"manifest.json"⟩⟩ (.lint false)) := by decide +kernel
  have hflow : parse none ["flow", "order", "refund", "-m", "manifest.json", "-o", "old.mmd"] =
      .ok (.run ⟨false, true, some ⟨"manifest.json"⟩⟩
        (.flow "order" "refund" (some ⟨"old.mmd"⟩))) := by decide +kernel
  have hlacks : (Command.flow "order" "refund" (some ⟨"old.mmd"⟩)).IsHopeless
      (storedDisk orderManifest) none ⟨"/shop"⟩ (some ⟨"manifest.json"⟩) := by
    rw [Command.IsHopeless, commandManifest_storedDisk]
    exact .inr ⟨orderModule, ⟨rfl, [], [], rfl, by decide⟩, by decide⟩
  obtain ⟨hquiet, -⟩ := commands_leave_files (i := shopInvocation ["lint", "-m", "manifest.json"])
    (.start (storedDisk orderManifest)) hlint
  obtain ⟨-, hfails⟩ := commands_leave_files
    (i := shopInvocation ["flow", "order", "refund", "-m", "manifest.json", "-o", "old.mmd"])
    (.start (storedDisk orderManifest)) hflow
  obtain ⟨hexit, hdisk, -⟩ := hfails _ _ rfl trivial hlacks
  exact ⟨hquiet trivial, hexit, hdisk⟩

end CommandLine
end ManifestAtlas
