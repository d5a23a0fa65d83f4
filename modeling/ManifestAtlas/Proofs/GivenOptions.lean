import ManifestAtlas.CommandLine.Parse

/-!
# The options that a command line gives

Reading arguments takes up one option after another, and keeps the last one
waiting until its value is known.  `Progress.options` lists all of them, and
every step of the reading only adds to that list
(`exists_options_of_takeArgument`).

A switch is an option without a letter and without a value: it can be given in
one way only.  So a command that was understood was given a switch exactly when
the switch is among its arguments, which `denies_warnings_iff` says of the lint.
-/

namespace ManifestAtlas.CommandLine

theorem exists_of_bind_eq_ok {ε α β : Type} {x : Except ε α} {f : α → Except ε β} {b : β}
    (h : (x >>= f) = .ok b) : ∃ a, x = .ok a ∧ f a = .ok b := by
  cases x with
  | error e => cases h
  | ok a => exact ⟨a, rfl, h⟩

theorem eq_ok_of_mapError_eq_ok {ε ε' α : Type} {x : Except ε α} {f : ε → ε'} {a : α}
    (h : x.mapError f = .ok a) : x = .ok a := by
  cases x with
  | error e => cases h
  | ok b => cases h; rfl

/-- An option that is given in one way only, by its long form alone. -/
def Opt.IsSwitch (o : Opt) : Prop :=
  o.letter? = none ∧ o.valueName? = none

namespace Progress

variable {s t : Progress} {o d : Opt} {value argument : String}

/-- The option whose value has still to be checked. -/
def pendingOption? (s : Progress) : Option Opt :=
  match s.pending with
  | some (.option o _) => some o
  | _ => none

/-- The options that were taken up. -/
def options (s : Progress) : List Opt :=
  s.given.map Prod.fst ++ s.pendingOption?.toList

theorem options_of_pending_eq_none (h : s.pending = none) : s.options = s.given.map Prod.fst := by
  rw [options, pendingOption?, h]
  exact List.append_nil _

theorem options_of_record (h : s.record o value = .ok t) (hpending : s.pending = none) :
    t.options = s.options ++ [o] ∧ t.pending = none := by
  rw [record] at h
  split at h
  · cases h
  · cases h
    exact ⟨by simp [options, pendingOption?, hpending], hpending⟩

theorem options_of_recordValue (h : s.recordValue o value = .ok t) (hpending : s.pending = none) :
    t.options = s.options ++ [o] ∧ t.pending = none := by
  obtain ⟨u, hrecord, hu⟩ := exists_of_bind_eq_ok h
  split at hu
  · cases hu
  · cases hu
    exact options_of_record hrecord hpending

theorem given_of_recordPositional {p : Positional} (h : s.recordPositional p value = .ok t) :
    t.given = s.given ∧ t.pending = s.pending := by
  rw [recordPositional] at h
  split at h
  · split at h <;> cases h
  · cases h
    exact ⟨rfl, rfl⟩

/-- Checking the pending argument takes up no option. -/
theorem options_of_settle (h : s.settle = .ok t) : t.options = s.options ∧ t.pending = none := by
  rw [settle] at h
  split at h
  · rename_i hpending
    cases h
    exact ⟨by rw [options, options, pendingOption?, pendingOption?, hpending], rfl⟩
  · cases h
  · rename_i o value hpending
    obtain ⟨hoptions, hnone⟩ := options_of_recordValue h rfl
    refine ⟨hoptions.trans ?_, hnone⟩
    simp [options, pendingOption?, hpending]
  · rename_i p value hpending
    obtain ⟨hgiven, hnone⟩ := given_of_recordPositional h
    exact ⟨by simp [options, pendingOption?, hpending, hgiven, hnone], hnone⟩

theorem options_of_flag (h : s.flag o = .ok t) : t.options = s.options ++ [o] := by
  obtain ⟨u, hsettle, hu⟩ := exists_of_bind_eq_ok h
  obtain ⟨hoptions, hpending⟩ := options_of_settle hsettle
  split at hu
  · cases hu
  · cases hu
  · rw [(options_of_record hu hpending).1, hoptions]

theorem options_of_option {attached : Option String} (h : s.option o attached = .ok t) :
    t.options = s.options ++ [o] := by
  obtain ⟨u, hsettle, hu⟩ := exists_of_bind_eq_ok h
  obtain ⟨hoptions, hpending⟩ := options_of_settle hsettle
  split at hu
  · rw [(options_of_recordValue hu hpending).1, hoptions]
  · cases hu
    rw [← hoptions, options_of_pending_eq_none hpending]
    rfl

end Progress

open Progress

section

variable {verb : Option Verb} {s t : Progress} {d : Opt} {argument : String}

/-! ## One argument -/

theorem takeWhile_long (d : Opt) : d.long.toList.takeWhile (· != '=') = d.long.toList := by
  cases d <;> decide

theorem long_of_findLong? {options : List Opt} {o : Opt} {name : String}
    (h : findLong? options name = some o) : o.long = name := by
  simpa using List.find?_some (p := fun o : Opt => decide (o.long = name)) h

theorem letter_of_findLetter? {options : List Opt} {o : Opt} {c : Char}
    (h : findLetter? options c = some o) : o.letter? = some c := by
  simpa using List.find?_some (p := fun o : Opt => decide (o.letter? = some c)) h

theorem eq_long_of_takeWhile {o : Opt} {body : List Char}
    (hname : o.long = String.ofList (body.takeWhile (· != '=')))
    (hwhole : body.dropWhile (· != '=') = []) : body = o.long.toList := by
  have hbody := List.takeWhile_append_dropWhile (p := (· != '=')) (l := body)
  rw [hwhole, List.append_nil] at hbody
  rw [hname, hbody, String.toList_ofList]

/-- The option that an argument names is some switch exactly when the argument is the name of the
switch and nothing else. -/
theorem Opt.IsSwitch.eq_iff {o : Opt} {body : List Char} (hd : d.IsSwitch)
    (hname : o.long = String.ofList (body.takeWhile (· != '=')))
    (hwhole : o.valueName? = none → body.dropWhile (· != '=') = []) :
    d = o ↔ body = d.long.toList := by
  constructor
  · rintro rfl
    exact eq_long_of_takeWhile hname (hwhole hd.2)
  · rintro rfl
    rw [takeWhile_long, String.ofList_toList] at hname
    exact Opt.eq_of_long_eq hname.symm

theorem exists_option_of_takeLong {options : List Opt} {body : List Char} (hd : d.IsSwitch)
    (h : takeLong options s body = .ok t) :
    ∃ o ∈ options, t.options = s.options ++ [o] ∧ (d = o ↔ body = d.long.toList) := by
  rw [takeLong] at h
  split at h
  · cases h
  · rename_i o hfind
    have hmem : o ∈ options := List.mem_of_find?_eq_some hfind
    have hname := long_of_findLong? hfind
    split at h
    · rename_i hvalue
      refine ⟨o, hmem, options_of_option h, hd.eq_iff hname fun hnone => ?_⟩
      rw [hnone] at hvalue
      cases hvalue
    · split at h
      · cases h
      · rename_i hattached
        refine ⟨o, hmem, options_of_flag h, hd.eq_iff hname fun _ => ?_⟩
        split at hattached
        · assumption
        · cases hattached

theorem exists_options_of_takeLetters {options : List Opt} {letters : List Char}
    (h : takeLetters options s letters = .ok t) :
    ∃ os, t.options = s.options ++ os ∧ ∀ o ∈ os, o ∈ options ∧ o.letter?.isSome = true := by
  induction letters generalizing s with
  | nil =>
    cases h
    exact ⟨[], (List.append_nil _).symm, nofun⟩
  | cons c rest ih =>
    rw [takeLetters] at h
    cases hfind : findLetter? options c with
    | none =>
      rw [hfind] at h
      cases h
    | some o =>
      have ho : o ∈ options ∧ o.letter?.isSome = true := by
        refine ⟨List.mem_of_find?_eq_some hfind, ?_⟩
        rw [letter_of_findLetter? hfind]
        rfl
      rw [hfind] at h
      dsimp only at h
      split at h
      · refine ⟨[o], ?_, by simpa using ho⟩
        split at h <;> exact options_of_option h
      · obtain ⟨u, hflag, hrest⟩ := exists_of_bind_eq_ok h
        obtain ⟨os, hoptions, hos⟩ := ih hrest
        refine ⟨o :: os, ?_, List.forall_mem_cons.2 ⟨ho, hos⟩⟩
        rw [hoptions, options_of_flag hflag, List.append_assoc]
        rfl

theorem takePositional_ne_ok (hverb : positionalsOf verb = []) :
    takePositional verb s argument ≠ .ok t := by
  intro h
  unfold takePositional at h
  rw [hverb] at h
  dsimp only [List.getElem?_nil] at h
  split at h
  · cases h
  · split at h <;> cases h

theorem shapeOf_long (d : Opt) : shapeOf ("--" ++ d.long) = .long d.long.toList := by
  cases d <;> rfl

theorem toList_of_shapeOf {body : List Char} (h : shapeOf argument = .long body) :
    argument.toList = '-' :: '-' :: body := by
  unfold shapeOf at h
  split at h
  · cases h
  · rename_i hlist
    cases h
    exact hlist
  · cases h
  · cases h

theorem eq_dashes_iff {body : List Char} (h : shapeOf argument = .long body) :
    argument = "--" ++ d.long ↔ body = d.long.toList := by
  constructor
  · rintro rfl
    rw [shapeOf_long] at h
    exact (Shape.long.inj h).symm
  · rintro rfl
    rw [← String.toList_inj, toList_of_shapeOf h]
    simp

/-- An argument adds the options that it gives, and it gives a switch only by naming it. -/
theorem exists_options_of_takeArgument (hverb : positionalsOf verb = []) (hd : d.IsSwitch)
    (h : takeArgument verb s argument = .ok t) :
    ∃ os, t.options = s.options ++ os ∧ (∀ o ∈ os, o ∈ optionsOf verb) ∧
      (d ∈ os ↔ argument = "--" ++ d.long) := by
  -- What is not written as a long option names no switch.
  have hnone (hshape : shapeOf argument ≠ .long d.long.toList) :
      d ∈ ([] : List Opt) ↔ argument = "--" ++ d.long := by
    refine iff_of_false List.not_mem_nil fun heq => hshape ?_
    rw [heq, shapeOf_long]
  rw [takeArgument] at h
  split at h
  · exact absurd h (takePositional_ne_ok hverb)
  cases hshape : shapeOf argument with
  | escape =>
    rw [hshape] at h
    cases h
    exact ⟨[], (List.append_nil _).symm, nofun, hnone (by rw [hshape]; nofun)⟩
  | plain =>
    rw [hshape] at h
    refine ⟨[], ?_, nofun, hnone (by rw [hshape]; nofun)⟩
    rw [List.append_nil]
    dsimp only at h
    split at h
    · rename_i hpending
      cases h
      simp [options, pendingOption?, hpending]
    · exact absurd h (takePositional_ne_ok hverb)
  | letters body =>
    rw [hshape] at h
    obtain ⟨os, hoptions, hos⟩ := exists_options_of_takeLetters h
    refine ⟨os, hoptions, fun o ho => (hos o ho).1, iff_of_false (fun hmem => ?_) fun heq => ?_⟩
    · have hletter := (hos d hmem).2
      rw [hd.1] at hletter
      cases hletter
    · rw [heq, shapeOf_long] at hshape
      cases hshape
  | long body =>
    rw [hshape] at h
    obtain ⟨o, ho, hoptions, hgiven⟩ := exists_option_of_takeLong hd h
    refine ⟨[o], hoptions, by simpa using ho, ?_⟩
    rw [List.mem_singleton, hgiven, eq_dashes_iff hshape]

/-! ## All arguments -/

theorem mem_options_takeAll {verb : Verb} {arguments : List String}
    (hverb : positionalsOf (some verb) = []) (hd : d.IsSwitch)
    (h : takeAll verb s arguments = .ok t) :
    d ∈ t.options ↔ d ∈ s.options ∨ "--" ++ d.long ∈ arguments := by
  induction arguments generalizing s with
  | nil =>
    cases h
    simp
  | cons argument rest ih =>
    obtain ⟨u, hargument, hrest⟩ := exists_of_bind_eq_ok h
    obtain ⟨os, hoptions, -, hos⟩ := exists_options_of_takeArgument hverb hd hargument
    rw [ih hrest, hoptions, List.mem_append, hos, List.mem_cons, or_assoc, eq_comm]

theorem given_of_addEnvironment {environment : Option String}
    (h : addEnvironment environment s = .ok t) : t.given = s.given := by
  unfold addEnvironment at h
  split at h
  · split at h <;> cases h
    rfl
  · cases h
    rfl

theorem eq_lint_of_commandOf {verb : Verb} {denyWarnings : Bool}
    (h : commandOf verb s = .ok (.lint denyWarnings)) :
    verb = .lint ∧ denyWarnings = isGiven .denyWarnings s.given := by
  unfold commandOf at h
  dsimp only at h
  split at h
  case h_4 => exact ⟨rfl, by cases h; rfl⟩
  case h_8 => split at h <;> cases h
  all_goals cases h

/-- Behind its name, the lint is told to deny warnings exactly when an argument says so. -/
theorem parseCommand_lint {environment : Option String} {verb : Verb} {arguments : List String}
    {denyWarnings : Bool}
    (h : parseCommand environment verb arguments = .ok (t, .lint denyWarnings)) :
    denyWarnings = true ↔ "--deny-warnings" ∈ arguments := by
  obtain ⟨read, hread, h⟩ := exists_of_bind_eq_ok h
  obtain ⟨settled, hsettle, h⟩ := exists_of_bind_eq_ok h
  obtain ⟨ended, hended, h⟩ := exists_of_bind_eq_ok h
  obtain ⟨-, -, h⟩ := exists_of_bind_eq_ok h
  obtain ⟨command, hcommand, h⟩ := exists_of_bind_eq_ok h
  cases h
  obtain ⟨rfl, hdeny⟩ := eq_lint_of_commandOf hcommand
  obtain ⟨hoptions, hpending⟩ := options_of_settle hsettle
  have hmem := mem_options_takeAll (d := .denyWarnings) rfl ⟨rfl, rfl⟩ hread
  rw [← hoptions, options_of_pending_eq_none hpending, ← given_of_addEnvironment hended] at hmem
  have hstart : Opt.denyWarnings ∉ Progress.start.options := by decide
  rw [hdeny, isGiven, List.any_eq_true]
  simpa [hstart, Opt.long] using hmem

/-- In front of the name of a command, warnings cannot be denied. -/
theorem not_deny_of_takeArgument (h : takeArgument none s argument = .ok t) :
    argument ≠ "--deny-warnings" := by
  obtain ⟨os, -, hos, hgiven⟩ :=
    exists_options_of_takeArgument (d := .denyWarnings) rfl ⟨rfl, rfl⟩ h
  intro heq
  exact absurd (hos _ (hgiven.2 heq)) (by decide)

theorem helpTopic_ne_run {globals : Globals} {command : Command} (names : List String) :
    helpTopic names ≠ .ok (.run globals command) := by
  intro h
  unfold helpTopic at h
  split at h
  · cases h
  · split at h <;> cases h

theorem parseFrom_lint {environment : Option String} {arguments : List String} {globals : Globals}
    {denyWarnings : Bool}
    (h : parseFrom environment s arguments = .ok (.run globals (.lint denyWarnings))) :
    denyWarnings = true ↔ "--deny-warnings" ∈ arguments := by
  induction arguments generalizing s with
  | nil =>
    obtain ⟨settled, -, h⟩ := exists_of_bind_eq_ok h
    obtain ⟨ended, -, h⟩ := exists_of_bind_eq_ok h
    split at h <;> cases h
  | cons argument rest ih =>
    have hfront (h : (do parseFrom environment (← takeArgument none s argument) rest) =
        .ok (.run globals (.lint denyWarnings))) :
        denyWarnings = true ↔ "--deny-warnings" ∈ argument :: rest := by
      obtain ⟨t, hargument, hrest⟩ := exists_of_bind_eq_ok h
      rw [ih hrest, List.mem_cons, or_iff_right (not_deny_of_takeArgument hargument).symm]
    rw [parseFrom] at h
    split at h
    · exact hfront h
    split at h
    · exact absurd h (helpTopic_ne_run rest)
    split at h
    · exact hfront h
    · rename_i verb hverb
      obtain ⟨⟨back, command⟩, hback, h⟩ := exists_of_bind_eq_ok h
      obtain ⟨settled, -, h⟩ := exists_of_bind_eq_ok h
      obtain ⟨ended, -, h⟩ := exists_of_bind_eq_ok h
      cases h
      have hname : "--deny-warnings" ≠ argument := by
        rintro rfl
        rw [show Verb.ofName? "--deny-warnings" = none from rfl] at hverb
        cases hverb
      rw [parseCommand_lint (eq_ok_of_mapError_eq_ok hback), List.mem_cons, or_iff_right hname]

/-- A lint that was understood denies warnings exactly when the command line says so. -/
theorem denies_warnings_iff {environment : Option String} {arguments : List String}
    {globals : Globals} {denyWarnings : Bool}
    (h : parse environment arguments = .ok (.run globals (.lint denyWarnings))) :
    denyWarnings = true ↔ "--deny-warnings" ∈ arguments := by
  unfold parse at h
  split at h
  · rename_i hread
    cases h
    exact parseFrom_lint hread
  all_goals cases h

end

end ManifestAtlas.CommandLine
