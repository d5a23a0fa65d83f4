import Mathlib
import ManifestAtlas.Proofs.ColourErasure
import ManifestAtlas.Proofs.LintVerdict
import ManifestAtlas.Proofs.SwitchArguments

/-!
# Runs with and without display switches

What the display switches ask for reaches two places of a run: the diagnostics
of the lint, and the report of the problem that ends a command.  Both go to the
standard error output.

Two runs that differ in their switches go side by side.  `EndAlike` says of two
steps that they end with the same result, files and standard output, although
what they log may differ.  It holds of every command under two choices of
colours (`endAlike_runCommand`), and so of whole runs (`endAlike_run`).

Main statement: `switches_change_no_products`.
-/

namespace ManifestAtlas.CommandLine

open Session

/-! ## Steps side by side -/

section

variable {α β : Type} {s t : Session}

/-- Two steps, each from a session of its own, end with the same result and the same products. -/
def EndAlike (x : StateM Session α) (s : Session) (y : StateM Session α) (t : Session) : Prop :=
  (x.run s).1 = (y.run t).1 ∧ (x.run s).2.products = (y.run t).2.products

theorem EndAlike.refl (x : StateM Session α) (s : Session) : EndAlike x s x s :=
  ⟨rfl, rfl⟩

theorem EndAlike.bind {x y : StateM Session α} {f g : α → StateM Session β}
    (h : EndAlike x s y t)
    (hnext : ∀ a u v, u.products = v.products → EndAlike (f a) u (g a) v) :
    EndAlike (x >>= f) s (y >>= g) t := by
  obtain ⟨hresult, hproducts⟩ := h
  rw [EndAlike, run_bind, run_bind, hresult]
  exact hnext _ _ _ hproducts

/-- What comes behind one step, from one session, is compared where that step ends. -/
theorem endAlike_bind_same {x : StateM Session α} {f g : α → StateM Session β}
    (hnext : ∀ a u, EndAlike (f a) u (g a) u) : EndAlike (x >>= f) s (x >>= g) s := by
  rw [EndAlike, run_bind, run_bind]
  exact hnext _ _

theorem EndAlike.run_bind {x y : Action (StateM Session) α}
    {f g : α → Action (StateM Session) β} (h : EndAlike x.run s y.run t)
    (hnext : ∀ a u v, u.products = v.products → EndAlike (f a).run u (g a).run v) :
    EndAlike (x >>= f).run s (y >>= g).run t := by
  rw [ExceptT.run_bind, ExceptT.run_bind]
  refine h.bind fun outcome u v huv => ?_
  cases outcome with
  | ok a => exact hnext a u v huv
  | error problem => exact ⟨rfl, huv⟩

theorem endAlike_run_bind_same {x : Action (StateM Session) α}
    {f g : α → Action (StateM Session) β}
    (hnext : ∀ a u, EndAlike (f a).run u (g a).run u) :
    EndAlike (x >>= f).run s (x >>= g).run s := by
  rw [ExceptT.run_bind, ExceptT.run_bind]
  refine endAlike_bind_same fun outcome u => ?_
  cases outcome with
  | ok a => exact hnext a u
  | error problem => exact .refl _ u

/-- Showing the same on the standard output keeps products the same. -/
theorem endAlike_present (event : Event) (h : s.products = t.products) :
    EndAlike (present event : Action (StateM Session) Unit).run s
      (present event : Action (StateM Session) Unit).run t := by
  have hdisk : s.disk = t.disk := congrArg Prod.fst h
  have hstdout : s.stdout = t.stdout := congrArg Prod.snd h
  refine ⟨rfl, ?_⟩
  change ((Console.emit event : StateM Session Unit).run s).2.products =
    ((Console.emit event : StateM Session Unit).run t).2.products
  rw [products, products, stdout_emit, stdout_emit, hstdout, leaves_disk_emit event s,
    leaves_disk_emit event t, hdisk]

end

/-! ## Commands -/

section

variable {context : Context} {named : Option Path} {s : Session}

theorem endAlike_showDiagnostics (coloured coloured' : Bool) (place : Path)
    (ds : List Diagnostic) (s : Session) :
    EndAlike (showDiagnostics coloured place ds : Action (StateM Session) Unit).run s
      (showDiagnostics coloured' place ds : Action (StateM Session) Unit).run s := by
  refine ⟨?_, ?_⟩
  · rw [run_showDiagnostics, run_showDiagnostics]
  · rw [leaves_showDiagnostics coloured place ds s, leaves_showDiagnostics coloured' place ds s]

theorem endAlike_runLint (coloured coloured' denyWarnings : Bool) :
    EndAlike
      (runLint { context with coloured := coloured } named denyWarnings :
        Action (StateM Session) Unit).run s
      (runLint { context with coloured := coloured' } named denyWarnings :
        Action (StateM Session) Unit).run s := by
  refine endAlike_run_bind_same fun loaded t => endAlike_run_bind_same fun _ u => ?_
  refine (endAlike_showDiagnostics coloured coloured' _ _ u).run_bind fun _ v w hvw => ?_
  refine (endAlike_present _ hvw).run_bind fun _ v w hvw => ?_
  dsimp only
  split <;> exact ⟨rfl, hvw⟩

/-- Whatever is said about colours, a command ends in the same way. -/
theorem endAlike_runCommand (texts : LibraryTexts) (coloured coloured' : Bool)
    (command : Command) :
    EndAlike
      (runCommand texts { context with coloured := coloured } named command :
        Action (StateM Session) Unit).run s
      (runCommand texts { context with coloured := coloured' } named command :
        Action (StateM Session) Unit).run s := by
  cases command with
  | lint denyWarnings => exact endAlike_runLint coloured coloured' denyWarnings
  | list index root => rcases index with _ | index <;> rcases root with _ | root <;> exact .refl _ s
  | _ => exact .refl _ s

end

/-! ## Whole runs -/

section

variable {i : Invocation} {others : List String} {request request' : Request} {s : Session}

/-- The switches decide about colours only, so that runs with the same manifest and command end in
the same way. -/
theorem endAlike_runWith {texts : LibraryTexts} {home : Option Path} {directory : Path}
    {globals globals' : Globals} (command : Command) (h : globals.manifest = globals'.manifest) :
    EndAlike (runWith texts home directory globals command : StateM Session UInt8) s
      (runWith texts home directory globals' command : StateM Session UInt8) s := by
  rw [runWith, runWith, h]
  refine endAlike_bind_same fun context t => ?_
  refine (endAlike_runCommand texts globals.coloured globals'.coloured command).bind
    fun outcome u v huv => ?_
  cases outcome with
  | ok _ => exact ⟨rfl, huv⟩
  | error problem =>
    refine ⟨rfl, ?_⟩
    exact (leaves_products_emit rfl u).trans (huv.trans (leaves_products_emit rfl v).symm)

theorem endAlike_run (hparse : parse i.manifestVariable i.arguments = .ok request)
    (hother : parse i.manifestVariable others = .ok request')
    (hsame : withoutSwitches i.arguments = withoutSwitches others) :
    EndAlike (run i : StateM Session UInt8) s
      (run { i with arguments := others } : StateM Session UInt8) s := by
  -- Without their switches the two requests are the same.
  have hquiet : request.quiet = request'.quiet := by
    have hleft := parse_withoutSwitches hparse
    rw [hsame, parse_withoutSwitches hother] at hleft
    exact (Except.ok.inj hleft).symm
  rw [run, run, hparse]
  dsimp only
  rw [hother]
  cases request with
  | version =>
    cases request' <;> cases hquiet
    exact .refl _ s
  | help topic =>
    cases request' <;> cases hquiet
    exact .refl _ s
  | run globals command =>
    cases request' with
    | version | help => cases hquiet
    | run globals' command' =>
      obtain ⟨hglobals, rfl⟩ := Request.run.inj hquiet
      exact endAlike_runWith command (Globals.mk.inj hglobals).2.2

end

/-- The display switches change only what is shown on the standard error output.  Two command lines
that the program understands and that are the same but for their switches, wherever these stand,
have the same exit code, leave the same files and print the same.  What is left of a command line
without its switches is understood as well, and so is one without switches when they are put in
front.  A diagnostic whose texts are free of escape characters differs from the plain one in its
colours only. -/
theorem switches_change_no_products :
    (∀ (i : Invocation) (others : List String) (request request' : Request) (s : Session),
      parse i.manifestVariable i.arguments = .ok request →
      parse i.manifestVariable others = .ok request' →
      withoutSwitches i.arguments = withoutSwitches others →
      ((run i : StateM Session UInt8).run s).1 =
          ((run { i with arguments := others } : StateM Session UInt8).run s).1 ∧
        ((run i : StateM Session UInt8).run s).2.disk =
          ((run { i with arguments := others } : StateM Session UInt8).run s).2.disk ∧
        ((run i : StateM Session UInt8).run s).2.stdout =
          ((run { i with arguments := others } : StateM Session UInt8).run s).2.stdout) ∧
    (∀ (switch : String) (front back : List String),
      switch ∈ ["-v", "--verbose", "--no-color"] → "--" ∉ front →
      withoutSwitches (front ++ switch :: back) = withoutSwitches (front ++ back)) ∧
    (∀ (environment : Option String) (arguments : List String) (request : Request),
      parse environment arguments = .ok request →
      parse environment (withoutSwitches arguments) = .ok request.quiet) ∧
    (∀ (environment : Option String) (arguments switches : List String) (request : Request),
      switches.Sublist ["-v", "--no-color"] → withoutSwitches arguments = arguments →
      parse environment arguments = .ok request →
      ∃ given, parse environment (switches ++ arguments) = .ok given ∧ request = given.quiet) ∧
    ∀ d : Diagnostic, (∀ t ∈ d.texts, IsEscapeFree t) →
      withoutColours (d.text true) = d.text false := by
  refine ⟨fun i others request request' s hparse hother hsame => ?_,
    fun switch front back hswitch hfront => withoutSwitches_insert hswitch hfront back,
    fun environment arguments request => parse_withoutSwitches,
    fun environment arguments switches request => parse_switches,
    fun d hfree => (erasesTo_text hfree).withoutColours_eq⟩
  obtain ⟨hexit, hproducts⟩ := endAlike_run (s := s) hparse hother hsame
  exact ⟨hexit, congrArg Prod.fst hproducts, congrArg Prod.snd hproducts⟩

/-- A lint in full and without colours, and a warning in colour. -/
theorem lint_runs_alike_with_switches :
    ((run (shopInvocation ["lint", "-m", "manifest.json"]) : StateM Session UInt8).run
        (.start (storedDisk orderManifest))).1 =
      ((run (shopInvocation ["-v", "lint", "--no-color", "-m", "manifest.json"]) :
        StateM Session UInt8).run (.start (storedDisk orderManifest))).1 ∧
    parse none ["lint", "-m", "manifest.json"] =
      .ok (.run ⟨false, true, some ⟨"manifest.json"⟩⟩ (.lint false)) ∧
    (∃ given, parse none ["-v", "--no-color", "lint", "-m", "manifest.json"] = .ok given) ∧
    withoutColours ((Diagnostic.plain .warning "duplicate module id").text true) =
      (Diagnostic.plain .warning "duplicate module id").text false := by
  obtain ⟨hruns, hinserted, hremoved, hadded, hcolours⟩ := switches_change_no_products
  have hparse : parse none ["lint", "-m", "manifest.json"] =
      .ok (.run ⟨false, true, some ⟨"manifest.json"⟩⟩ (.lint false)) := by decide +kernel
  have hother : parse none ["-v", "lint", "--no-color", "-m", "manifest.json"] =
      .ok (.run ⟨true, false, some ⟨"manifest.json"⟩⟩ (.lint false)) := by decide +kernel
  have hsame : withoutSwitches ["lint", "-m", "manifest.json"] =
      withoutSwitches ["-v", "lint", "--no-color", "-m", "manifest.json"] :=
    ((hinserted "-v" [] _ (by decide) (by decide)).trans
      (hinserted "--no-color" ["lint"] _ (by decide) (by decide))).symm
  have hfree : withoutSwitches ["lint", "-m", "manifest.json"] =
      ["lint", "-m", "manifest.json"] := by decide +kernel
  refine ⟨?_, ?_, ?_, hcolours _ (by decide)⟩
  · exact (hruns (shopInvocation ["lint", "-m", "manifest.json"]) _ _ _ _ hparse hother hsame).1
  · have hquiet := hremoved none _ _ hother
    rw [← hsame, hfree] at hquiet
    exact hquiet
  · obtain ⟨given, hgiven, -⟩ := hadded none _ _ _ (.refl ["-v", "--no-color"]) hfree hparse
    exact ⟨given, hgiven⟩

end ManifestAtlas.CommandLine
