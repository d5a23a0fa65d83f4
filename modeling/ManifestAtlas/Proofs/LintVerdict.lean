import ManifestAtlas.Proofs.GivenOptions
import ManifestAtlas.Proofs.LintFindings
import ManifestAtlas.Proofs.QuietCommands

/-!
# The verdict of the lint

What the lint finds decides its summary, whether it calls a manifest clean, and
the exit code of the command, each in a way of its own: the summary counts two
of the four severities, cleanness compares severities by their rank, and the
exit code also depends on the command line and on the settings.  They agree
because every finding is a warning or a note
(`LintReport.severity_of_mem_diagnostics`).

Main statement: `lint_verdict_agrees`.
-/

namespace ManifestAtlas

open CommandLine

/-! ## Counting -/

namespace LintReport

variable {report : LintReport}

theorem severity_of_mem_diagnostics {d : Diagnostic} (h : d ∈ report.diagnostics) :
    d.severity = .warning ∨ d.severity = .note := by
  obtain ⟨f, _, rfl⟩ := List.mem_map.1 h
  exact f.severity_eq

/-- Every finding is a warning or a note, so that the two counts leave none out. -/
theorem count_warning_add_count_note (report : LintReport) :
    report.count .warning + report.count .note = report.diagnostics.length := by
  have hnote : report.count .note =
      report.diagnostics.countP fun d => !decide (d.severity = .warning) := by
    refine List.countP_congr fun d hd => ?_
    rcases severity_of_mem_diagnostics hd with h | h <;> simp [h]
  rw [hnote]
  have htotal := report.diagnostics.length_eq_countP_add_countP
    (fun d => decide (d.severity = .warning))
  simpa [count] using htotal.symm

theorem isClean_iff_count_eq_zero : report.isClean = true ↔ report.count .warning = 0 := by
  rw [count, List.countP_eq_zero, isClean, List.all_eq_true]
  refine forall₂_congr fun d hd => ?_
  rcases severity_of_mem_diagnostics hd with h | h <;> simp [h, Severity.isAboveNote, Severity.rank]

theorem plural_eq (n : Nat) (word : String) :
    plural n word = s!"{n} " ++ if n = 1 then word else word ++ "s" := by
  rw [plural]
  split <;> simp [String.append_assoc, toString]

end LintReport

/-! ## The exit code -/

namespace CommandLine

section

variable {s : Session}

theorem run_remark (lines : List String) :
    ((remark lines : Action (StateM Session) Unit).run.run s).1 = .ok () := by
  induction lines generalizing s with
  | nil => rfl
  | cons line lines ih =>
    rw [remark, run_bind_of_ok rfl]
    exact ih

theorem run_showDiagnostics (coloured : Bool) (place : Path) (ds : List Diagnostic) :
    ((showDiagnostics coloured place ds : Action (StateM Session) Unit).run.run s).1 = .ok () := by
  induction ds generalizing s with
  | nil => rfl
  | cons d ds ih =>
    rw [showDiagnostics, run_bind_of_ok rfl]
    exact ih

theorem run_runLint {home named : Option Path} {directory path : Path} {manifest : Manifest}
    (coloured denyWarnings : Bool)
    (h : s.disk.commandManifest home directory named = .ok (path, manifest)) :
    ((runLint (s.disk.contextOf home directory coloured) named denyWarnings :
      Action (StateM Session) Unit).run.run s).1 =
      if (denyWarnings ||
          (s.disk.mergedConfig (home.map Config.fileOf) directory).denyWarnings) &&
        !(lint manifest).isClean
      then .error (.lintFailed (lint manifest).summary) else .ok () := by
  have hload := run_attempt_loadManifest (s := s) home directory coloured named
  rw [h] at hload
  rw [runLint, run_bind_of_ok hload]
  dsimp only
  have hdeny : (s.disk.contextOf home directory coloured).config.denyWarnings =
      (s.disk.mergedConfig (home.map Config.fileOf) directory).denyWarnings := rfl
  rw [run_bind_of_ok (run_remark _), run_bind_of_ok (run_showDiagnostics _ _ _),
    run_bind_of_ok rfl, hdeny]
  by_cases hfails : ((denyWarnings ||
      (s.disk.mergedConfig (home.map Config.fileOf) directory).denyWarnings) &&
        !(lint manifest).isClean) = true
  · rw [if_pos hfails, if_pos hfails]
    rfl
  · rw [if_neg hfails, if_neg hfails]
    rfl

/-- The lint exits with 1 for a warning where warnings are denied, and with 0 otherwise. -/
theorem run_lint {i : Invocation} {globals : Globals} {denyWarnings : Bool} {path : Path}
    {manifest : Manifest}
    (hparse : parse i.manifestVariable i.arguments = .ok (.run globals (.lint denyWarnings)))
    (hload : s.disk.commandManifest i.home i.workingDirectory globals.manifest =
      .ok (path, manifest)) :
    ((run i : StateM Session UInt8).run s).1 =
      if (denyWarnings ||
          (s.disk.mergedConfig (i.home.map Config.fileOf) i.workingDirectory).denyWarnings) &&
        !(lint manifest).isClean
      then 1 else 0 := by
  obtain ⟨t, ht, hrun⟩ :=
    run_runWith i.texts i.home i.workingDirectory globals (.lint denyWarnings) s
  have hdisk : t.disk = s.disk := congrArg Prod.fst ht
  rw [← hdisk] at hload
  have hlint := run_runLint globals.coloured denyWarnings hload
  rw [hdisk] at hlint
  rw [run_of_parse hparse, hrun, runCommand]
  generalize (runLint (s.disk.contextOf i.home i.workingDirectory globals.coloured)
    globals.manifest denyWarnings : Action (StateM Session) Unit).run.run t = ended at hlint ⊢
  obtain ⟨outcome, u⟩ := ended
  obtain rfl : outcome = _ := hlint
  by_cases hfails : ((denyWarnings ||
      (s.disk.mergedConfig (i.home.map Config.fileOf) i.workingDirectory).denyWarnings) &&
        !(lint manifest).isClean) = true
  · rw [if_pos hfails, if_pos hfails]
  · rw [if_neg hfails, if_neg hfails]

end

/-- The verdict of the lint is the same from its findings to its exit code.  Every finding is a
warning or a note, the summary counts all of them, and a manifest is clean if there is no warning.
A run of the lint exits with 1 if there is one and the command line or the settings deny warnings,
and with 0 otherwise. -/
theorem lint_verdict_agrees (manifest : Manifest) :
    (∀ d ∈ (lint manifest).diagnostics, d.severity = .warning ∨ d.severity = .note) ∧
    (∃ warnings notes : Nat,
      (lint manifest).count .warning = warnings ∧ (lint manifest).count .note = notes ∧
      warnings + notes = (lint manifest).diagnostics.length ∧
      ((lint manifest).isClean = true ↔ warnings = 0) ∧
      (lint manifest).summary =
        s!"{warnings} " ++ (if warnings = 1 then "warning" else "warnings") ++ ", " ++
          (s!"{notes} " ++ if notes = 1 then "note" else "notes")) ∧
    ∀ (i : Invocation) (s : Session) (globals : Globals) (denyWarnings : Bool) (path : Path),
      parse i.manifestVariable i.arguments = .ok (.run globals (.lint denyWarnings)) →
      s.disk.commandManifest i.home i.workingDirectory globals.manifest = .ok (path, manifest) →
      ((run i : StateM Session UInt8).run s).1 =
        if ("--deny-warnings" ∈ i.arguments ∨
            (s.disk.mergedConfig (i.home.map Config.fileOf) i.workingDirectory).denyWarnings) ∧
          0 < (lint manifest).count .warning
        then 1 else 0 := by
  refine ⟨fun d => LintReport.severity_of_mem_diagnostics, ⟨_, _, rfl, rfl,
    LintReport.count_warning_add_count_note _, LintReport.isClean_iff_count_eq_zero, ?_⟩, ?_⟩
  · rw [LintReport.summary, LintReport.plural_eq, LintReport.plural_eq]
    rfl
  · intro i s globals denyWarnings path hparse hload
    rw [run_lint hparse hload]
    refine if_congr ?_ rfl rfl
    rw [Bool.and_eq_true, Bool.or_eq_true, denies_warnings_iff hparse, Nat.pos_iff_ne_zero,
      Ne, ← LintReport.isClean_iff_count_eq_zero]
    simp

/-- A manifest that has the same module twice. -/
def twinManifest : Manifest :=
  { orderManifest with modules := [orderModule, orderModule] }

theorem lint_fails_on_twinManifest :
    ((run (shopInvocation ["lint", "-m", "manifest.json", "--deny-warnings"]) :
      StateM Session UInt8).run (.start (storedDisk twinManifest))).1 = 1 := by
  have hparse : parse none ["lint", "-m", "manifest.json", "--deny-warnings"] =
      .ok (.run ⟨false, true, some ⟨"manifest.json"⟩⟩ (.lint true)) := by decide +kernel
  have hwarns : 0 < (lint twinManifest).count .warning := by decide +kernel
  obtain ⟨-, -, hexit⟩ := lint_verdict_agrees twinManifest
  rw [hexit (shopInvocation ["lint", "-m", "manifest.json", "--deny-warnings"])
    (.start (storedDisk twinManifest)) _ _ ⟨"/shop/manifest.json"⟩ hparse
    (commandManifest_storedDisk twinManifest none)]
  exact if_pos ⟨.inl (by simp [shopInvocation]), hwarns⟩

end CommandLine
end ManifestAtlas
