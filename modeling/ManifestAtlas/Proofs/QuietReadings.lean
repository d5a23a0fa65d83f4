import Mathlib
import ManifestAtlas.Proofs.GivenOptions

/-!
# Readings with and without display switches

Two options only say how a run is shown: whether the log is shown in full, and
whether there are colours.  When the arguments of a command line are read with
these switches and without them, the two states differ in the switches that
were given and, right behind a switch, in an argument that one reading has
checked and the other still keeps (`Progress.Quiets`).

`Agrees` compares what comes of the two: they end in the same way, unless the
reading with the switches ends with a usage error, as it does when a switch is
repeated.  Each operation on the state has its lemma: checking what is pending
brings the readings together (`agrees_settle`), and a switch itself changes
nothing else (`agrees_switch`).
-/

namespace ManifestAtlas.CommandLine

/-! ## Switches -/

/-- An option that only says how a run is shown. -/
def Opt.isDisplay : Opt → Bool
  | .verbose | .noColor => true
  | _ => false

theorem Opt.eq_of_isDisplay {o : Opt} (h : o.isDisplay = true) : o = .verbose ∨ o = .noColor := by
  cases o <;> first | exact .inl rfl | exact .inr rfl | cases h

/-- What was read, without the switches. -/
def Progress.quiet (s : Progress) : Progress :=
  { s with given := s.given.filter fun g => !g.1.isDisplay }

/-- What a command line asks for, without the switches. -/
def Request.quiet : Request → Request
  | .run globals command => .run ⟨false, true, globals.manifest⟩ command
  | .version => .version
  | .help topic => .help topic

/-! ## Two readings -/

/-- A reading ends with a usage error. -/
def IsRefused {α : Type} (x : Except Interruption α) : Prop :=
  ∃ e, x = .error (.usage e)

/-- A reading comes upon nothing that asks for information, so that only usage errors end it. -/
def AsksNothing {α : Type} (x : Except Interruption α) : Prop :=
  ∀ e, x = .error e → ∃ error, e = .usage error

/-- Two readings end in the same way: with related values, with the same interruption, or both with
usage errors.  If `slack` holds, the second may end in any way where the first one ends with a
usage error. -/
inductive Agrees {α β : Type} (slack : Prop) (R : α → β → Prop) :
    Except Interruption α → Except Interruption β → Prop where
  | ok {a : α} {b : β} (h : R a b) : Agrees slack R (.ok a) (.ok b)
  | error (e : Interruption) : Agrees slack R (.error e) (.error e)
  | refused {y : Except Interruption β} (e : UsageError) (h : slack ∨ IsRefused y) :
    Agrees slack R (.error (.usage e)) y

section

variable {α β α' β' : Type} {slack : Prop} {R : α → β → Prop} {S : α' → β' → Prop}
  {x : Except Interruption α} {y : Except Interruption β} {f : α → Except Interruption α'}
  {g : β → Except Interruption β'}

theorem IsRefused.bind (h : IsRefused x) : IsRefused (x >>= f) := by
  obtain ⟨e, rfl⟩ := h
  exact ⟨e, rfl⟩

theorem asksNothing_ok (a : α) : AsksNothing (.ok a) :=
  nofun

theorem asksNothing_refused (e : UsageError) :
    AsksNothing (.error (.usage e) : Except Interruption α) := by
  intro e' h
  cases h
  exact ⟨e, rfl⟩

theorem AsksNothing.bind (h : AsksNothing x) (hnext : ∀ a, AsksNothing (f a)) :
    AsksNothing (x >>= f) := by
  cases x with
  | ok a => exact hnext a
  | error e =>
    obtain ⟨error, rfl⟩ := h e rfl
    exact asksNothing_refused error

theorem AsksNothing.isRefused_bind (h : AsksNothing x) (hnext : ∀ a, IsRefused (f a)) :
    IsRefused (x >>= f) := by
  cases x with
  | ok a => exact hnext a
  | error e =>
    obtain ⟨error, rfl⟩ := h e rfl
    exact ⟨error, rfl⟩

namespace Agrees

theorem same (x : Except Interruption α) : Agrees slack Eq x x := by
  cases x with
  | error e => exact .error e
  | ok a => exact .ok rfl

theorem mono {R' : α → β → Prop} (h : Agrees slack R x y) (hmono : ∀ a b, R a b → R' a b) :
    Agrees slack R' x y := by
  cases h with
  | ok h => exact .ok (hmono _ _ h)
  | error e => exact .error e
  | refused e h => exact .refused e h

theorem bind (h : Agrees slack R x y) (hnext : ∀ a b, R a b → Agrees slack S (f a) (g b)) :
    Agrees slack S (x >>= f) (y >>= g) := by
  cases h with
  | ok h => exact hnext _ _ h
  | error e => exact .error e
  | refused e h => exact .refused e (h.imp_right IsRefused.bind)

/-- Another wording of what ends the readings keeps them together, as long as usage errors stay as
they are. -/
theorem mapError {reword : Interruption → Interruption} (h : Agrees slack R x y)
    (hreword : ∀ e, reword (.usage e) = .usage e) :
    Agrees slack R (x.mapError reword) (y.mapError reword) := by
  cases h with
  | ok h => exact .ok h
  | error e => exact .error (reword e)
  | refused e h =>
    rw [Except.mapError, hreword]
    refine .refused e (h.imp_right ?_)
    rintro ⟨e', rfl⟩
    exact ⟨e', congrArg Except.error (hreword e')⟩

theorem of_isRefused (hx : IsRefused x) (hy : IsRefused y) : Agrees slack R x y := by
  obtain ⟨e, rfl⟩ := hx
  exact .refused e (.inr hy)

/-- If usage errors of the first reading do not count, only its values do. -/
theorem of_asksNothing {b : β} (hslack : slack) (hx : AsksNothing x)
    (h : ∀ a, x = .ok a → R a b) : Agrees slack R x (.ok b) := by
  cases x with
  | ok a => exact .ok (h a rfl)
  | error e =>
    obtain ⟨error, rfl⟩ := hx e rfl
    exact .refused error (.inl hslack)

end Agrees

end

namespace Progress

/-- What was read is what was read with the switches, and nothing is pending. -/
structure Settles (trailing : Bool) (s t : Progress) : Prop where
  pending : s.pending = none
  trailing : s.trailing = trailing
  eq : t = s.quiet

/-- What was read is what was read with the switches, but for the last argument, which may still be
pending where a switch behind it was left out. -/
structure Quiets (trailing : Bool) (s t : Progress) : Prop where
  sound : ∀ o value, s.pending = some (.option o value) → o.isDisplay = false
  trailing : s.trailing = trailing
  eq : t = s.quiet ∨ s.pending = none ∧ t.settle = .ok s.quiet

/-- The number of positional arguments that were read. -/
def taken (s : Progress) : Nat :=
  s.positionals.length + match s.pending with
    | some (.positional _ _) => 1
    | _ => 0

section

variable {slack : Prop} {trailing : Bool} {s t : Progress} {o : Opt} {value : String}

/-! ## Checking what is pending -/

theorem Settles.quiets (h : Settles trailing s t) : Quiets trailing s t where
  sound o value hpending := by
    rw [h.pending] at hpending
    cases hpending
  trailing := h.trailing
  eq := .inl h.eq

theorem quiets_start : Quiets false .start .start :=
  ⟨nofun, rfl, .inl rfl⟩

/-- Whether an option other than a switch was given does not depend on the switches. -/
theorem any_quiet (s : Progress) (ho : o.isDisplay = false) :
    s.quiet.given.any (fun g => g.1 = o) = s.given.any fun g => g.1 = o := by
  rw [quiet, List.any_filter]
  congr 1
  funext g
  by_cases hg : g.1 = o
  · simp [hg, ho]
  · simp [hg]

theorem agrees_record (h : Settles trailing s t) (ho : o.isDisplay = false) :
    Agrees slack (Settles trailing) (s.record o value) (t.record o value) := by
  obtain ⟨hpending, htrailing, rfl⟩ := h
  rw [record, record, any_quiet s ho]
  split
  · exact .error _
  · refine .ok ⟨hpending, htrailing, ?_⟩
    simp [quiet, ho]

theorem agrees_recordValue (h : Settles trailing s t) (ho : o.isDisplay = false) :
    Agrees slack (Settles trailing) (s.recordValue o value) (t.recordValue o value) := by
  refine (agrees_record h ho).bind fun a b hab => ?_
  split
  · exact .error _
  · exact .ok hab

theorem agrees_recordPositional (h : Settles trailing s t) (p : Positional) :
    Agrees slack (Settles trailing) (s.recordPositional p value) (t.recordPositional p value) := by
  obtain ⟨hpending, htrailing, rfl⟩ := h
  rw [recordPositional, recordPositional]
  split
  · split <;> exact .error _
  · exact .ok ⟨hpending, htrailing, rfl⟩

theorem settle_of_pending_eq_none (h : s.pending = none) : s.settle = .ok s := by
  rw [settle, h]
  exact congrArg Except.ok (by rw [← h])

/-- Checking what is pending brings the two readings together. -/
theorem agrees_settle (h : Quiets trailing s t) :
    Agrees slack (Settles trailing) s.settle t.settle := by
  obtain ⟨hsound, htrailing, heq⟩ := h
  rcases heq with rfl | ⟨hpending, heq⟩
  · have hsettled : Settles trailing { s with pending := none } { s.quiet with pending := none } :=
      ⟨rfl, htrailing, rfl⟩
    have hsame : s.quiet.pending = s.pending := rfl
    rw [settle, settle, hsame]
    split
    · exact .ok hsettled
    · exact .error _
    · rename_i o value hpending
      exact agrees_recordValue hsettled (hsound o _ hpending)
    · exact agrees_recordPositional hsettled _
  · rw [heq, settle_of_pending_eq_none hpending]
    exact .ok ⟨hpending, htrailing, rfl⟩

theorem Quiets.settle_eq {u : Progress} (h : Quiets trailing s t) (hs : s.settle = .ok u) :
    u.pending = none ∧ u.trailing = trailing ∧ t.settle = .ok u.quiet := by
  have hsettled : Agrees False (Settles trailing) s.settle t.settle := agrees_settle h
  rw [hs] at hsettled
  generalize t.settle = y at hsettled ⊢
  obtain ⟨hpending, htrailing, rfl⟩ | _ | _ := hsettled
  exact ⟨hpending, htrailing, rfl⟩

/-- Checking what is pending counts it, and leaves the rest of the state. -/
theorem taken_of_settle (h : s.settle = .ok t) :
    t.taken = s.taken ∧ t.trailing = s.trailing ∧ s.isAwaiting = false := by
  have hrecord : ∀ {u v : Progress} {o : Opt} {value : String}, u.recordValue o value = .ok v →
      v.positionals = u.positionals ∧ v.pending = u.pending ∧ v.trailing = u.trailing := by
    intro u v o value h
    obtain ⟨w, hw, h⟩ := exists_of_bind_eq_ok h
    rw [record] at hw
    split at hw <;> cases hw
    split at h <;> cases h
    exact ⟨rfl, rfl, rfl⟩
  rw [settle] at h
  split at h
  · rename_i hpending
    cases h
    simp [taken, isAwaiting, hpending]
  · cases h
  · rename_i o value hpending
    obtain ⟨hpositionals, hnone, htrailing⟩ := hrecord h
    simp [taken, isAwaiting, hpending, hpositionals, hnone, htrailing]
  · rename_i p value hpending
    rw [recordPositional] at h
    split at h
    · split at h <;> cases h
    · cases h
      simp [taken, isAwaiting, hpending]

/-- What decides how the next argument is taken is the same in the two readings. -/
theorem Quiets.same (h : Quiets trailing s t) :
    t.taken = s.taken ∧ t.trailing = trailing ∧ t.isAwaiting = s.isAwaiting := by
  obtain ⟨-, htrailing, rfl | ⟨hpending, hsettle⟩⟩ := h
  · exact ⟨rfl, htrailing, rfl⟩
  · obtain ⟨htaken, hother, hawaiting⟩ := taken_of_settle hsettle
    refine ⟨htaken.symm, hother.symm.trans htrailing, ?_⟩
    rw [hawaiting]
    simp [isAwaiting, hpending]

theorem asksNothing_record (s : Progress) (o : Opt) (value : String) :
    AsksNothing (s.record o value) := by
  rw [record]
  split
  · exact asksNothing_refused _
  · exact asksNothing_ok _

theorem asksNothing_settle (s : Progress) : AsksNothing s.settle := by
  rw [settle]
  split
  · exact asksNothing_ok _
  · exact asksNothing_refused _
  · refine (asksNothing_record _ _ _).bind fun t => ?_
    split
    · exact asksNothing_refused _
    · exact asksNothing_ok _
  · rw [recordPositional]
    split
    · split <;> exact asksNothing_refused _
    · exact asksNothing_ok _

theorem settle_escape (s : Progress) :
    ({ s with trailing := true } : Progress).settle =
      s.settle.map fun t => { t with trailing := true } := by
  rw [settle, settle]
  dsimp only
  split
  · rfl
  · rfl
  · rename_i o value _
    rw [recordValue, recordValue, record, record]
    dsimp only
    split
    · rfl
    · change ite _ _ _ = (ite _ _ _ : Except Interruption Progress).map _
      split <;> rfl
  · rw [recordPositional, recordPositional]
    split
    · split <;> rfl
    · rfl

/-- The two readings may come upon two dashes. -/
theorem Quiets.escape (h : Quiets trailing s t) :
    Quiets true { s with trailing := true } { t with trailing := true } := by
  refine ⟨h.sound, rfl, ?_⟩
  obtain rfl | ⟨hpending, hsettle⟩ := h.eq
  · exact .inl rfl
  · refine .inr ⟨hpending, ?_⟩
    rw [settle_escape, hsettle]
    rfl

/-! ## Taking options -/

theorem agrees_flag (h : Quiets trailing s t) (ho : o.isDisplay = false) :
    Agrees slack (Quiets trailing) (s.flag o) (t.flag o) := by
  refine (agrees_settle h).bind fun a b hab => ?_
  split
  · exact .error _
  · exact .error _
  · exact (agrees_record hab ho).mono fun _ _ => Settles.quiets

/-- An option that asks for information ends the reading. -/
theorem agrees_interrupt (h : Quiets trailing s t) (ho : o = .help ∨ o = .version) :
    Agrees slack (fun _ _ => False) (s.flag o) (t.flag o) := by
  refine (agrees_settle h).bind fun a b _ => ?_
  rcases ho with rfl | rfl <;> exact .error _

theorem agrees_option (h : Quiets trailing s t) (ho : o.isDisplay = false)
    (attached : Option String) :
    Agrees slack (Quiets trailing) (s.option o attached) (t.option o attached) := by
  refine (agrees_settle h).bind fun a b hab => ?_
  cases attached with
  | some value => exact (agrees_recordValue hab ho).mono fun _ _ => Settles.quiets
  | none =>
    obtain ⟨hpending, htrailing, rfl⟩ := hab
    refine .ok ⟨fun o' value h' => ?_, htrailing, .inl rfl⟩
    cases h'
    exact ho

/-- A switch adds itself to what was read, and nothing else. -/
theorem agrees_switch (hslack : slack) (h : Quiets trailing s t) (ho : o.isDisplay = true) :
    Agrees slack (Quiets trailing) (s.flag o) (.ok t) := by
  have hflag : s.flag o = s.settle >>= fun settled => settled.record o "" := by
    rcases Opt.eq_of_isDisplay ho with rfl | rfl <;> rfl
  rw [hflag]
  refine .of_asksNothing hslack
    ((asksNothing_settle s).bind fun settled => asksNothing_record settled o "") fun u hu => ?_
  obtain ⟨settled, hsettle, hrecord⟩ := exists_of_bind_eq_ok hu
  obtain ⟨hpending, htrailing, hother⟩ := h.settle_eq hsettle
  rw [record] at hrecord
  split at hrecord <;> cases hrecord
  refine ⟨fun o' value h' => ?_, htrailing, .inr ⟨hpending, ?_⟩⟩
  · cases hpending.symm.trans h'
  · rw [hother]
    simp [quiet, ho]

end

end Progress

open Progress

/-! ## What was read, without the switches -/

section

variable {slack : Prop} {o : Opt}

theorem asksNothing_addEnvironment (environment : Option String) (s : Progress) :
    AsksNothing (addEnvironment environment s) := by
  unfold addEnvironment
  split
  · split
    · exact asksNothing_ok _
    · exact asksNothing_refused _
  · exact asksNothing_ok _

theorem agrees_addEnvironment {environment : Option String} (s : Progress) :
    Agrees slack (fun a b => b = a.quiet) (addEnvironment environment s)
      (addEnvironment environment s.quiet) := by
  unfold addEnvironment
  rw [any_quiet s rfl]
  split
  · split
    · exact .ok rfl
    · exact .error _
  · exact .ok rfl

theorem valueOf?_quiet (s : Progress) (ho : o.isDisplay = false) :
    valueOf? o s.quiet.given = valueOf? o s.given := by
  rw [valueOf?, valueOf?, quiet, List.find?_filter]
  congr 2
  funext g
  by_cases hg : g.1 = o
  · simp [hg, ho]
  · simp [hg]

theorem isGiven_quiet_of_isDisplay (s : Progress) (ho : o.isDisplay = true) :
    isGiven o s.quiet.given = false := by
  rw [isGiven, quiet, List.any_filter, List.any_eq_false]
  rintro g - hg
  simp only [Bool.and_eq_true, Bool.not_eq_true', decide_eq_true_eq] at hg
  rw [hg.2, ho] at hg
  cases hg.1

theorem checkConflicts_quiet (s : Progress) :
    checkConflicts s.quiet.given = checkConflicts s.given := by
  have hsame :
      (s.quiet.given.filterMap fun g => if g.1 = .index ∨ g.1 = .scan then some g.1 else none) =
        s.given.filterMap fun g => if g.1 = .index ∨ g.1 = .scan then some g.1 else none := by
    rw [quiet, List.filterMap_filter]
    congr 1
    funext g
    by_cases hg : g.1 = .index ∨ g.1 = .scan
    · rcases hg with hg | hg <;> simp [hg, Opt.isDisplay]
    · simp [hg]
  rw [checkConflicts, checkConflicts, hsame]

theorem commandOf_quiet (verb : Verb) (s : Progress) :
    commandOf verb s.quiet = commandOf verb s := by
  have hdeny : isGiven .denyWarnings s.quiet.given = isGiven .denyWarnings s.given :=
    any_quiet s rfl
  unfold commandOf
  rw [valueOf?_quiet s rfl, valueOf?_quiet s rfl, valueOf?_quiet s rfl, valueOf?_quiet s rfl,
    valueOf?_quiet s rfl, hdeny]
  rfl

theorem globalsOf_quiet (environment : Option String) (front back : Progress) :
    globalsOf environment front.quiet.given back.quiet.given =
      ⟨false, true, (globalsOf environment front.given back.given).manifest⟩ := by
  rw [globalsOf, isGiven_quiet_of_isDisplay _ rfl, isGiven_quiet_of_isDisplay _ rfl,
    isGiven_quiet_of_isDisplay _ rfl, isGiven_quiet_of_isDisplay _ rfl, valueOf?_quiet _ rfl,
    valueOf?_quiet _ rfl]
  rfl

end

end ManifestAtlas.CommandLine
