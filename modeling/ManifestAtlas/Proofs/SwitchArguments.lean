import Mathlib
import ManifestAtlas.Proofs.QuietReadings

/-!
# Command lines without their display switches

`withoutSwitches` takes the display switches out of the arguments of a command
line, wherever they may stand: as arguments of their own, or as the first
letter of several behind one dash.  An argument and what is left of it are read
side by side (`agrees_takeArgument`), and so are whole command lines, behind
the name of a command (`agrees_parseCommand`) and in front of it
(`agrees_parseFrom`).

Main statements: a command line that is understood is understood without its
switches, and means the same but for them (`parse_withoutSwitches`), and one
without switches is understood with switches in front of it (`parse_switches`).
-/

namespace ManifestAtlas.CommandLine

open Progress

/-! ## Switches among the arguments -/

/-- Letters behind a dash without the switches in front of them, as an argument. -/
def withoutLetters? (letters : List Char) : Option String :=
  match letters.dropWhile (· = 'v') with
  | [] => none
  | rest => some (String.ofList ('-' :: rest))

/-- An argument without the switches in it, if anything is left. -/
def withoutSwitch? (argument : String) : Option String :=
  match shapeOf argument with
  | .long body =>
    if body = Opt.verbose.long.toList ∨ body = Opt.noColor.long.toList then none else some argument
  | .letters body => withoutLetters? body
  | .escape | .plain => some argument

/-- Arguments without the switches in them.  Two dashes on their own end the options. -/
def withoutSwitches : List String → List String
  | [] => []
  | argument :: rest =>
    match shapeOf argument with
    | .escape => argument :: rest
    | _ => (withoutSwitch? argument).toList ++ withoutSwitches rest

section

variable {slack : Prop} {trailing : Bool} {s t : Progress} {o : Opt} {options : List Opt}
  {verb : Option Verb} {argument : String}

theorem withoutLetters?_cons_of_ne {c : Char} (rest : List Char) (hc : c ≠ 'v') :
    withoutLetters? (c :: rest) = some (String.ofList ('-' :: c :: rest)) := by
  rw [withoutLetters?, List.dropWhile_cons_of_neg (by simpa using hc)]

theorem withoutLetters?_switch (rest : List Char) :
    withoutLetters? ('v' :: rest) = withoutLetters? rest := by
  rw [withoutLetters?, withoutLetters?, List.dropWhile_cons_of_pos (by decide)]

theorem ne_of_withoutLetters? {c : Char} {rest : List Char}
    (h : withoutLetters? (c :: rest) = some (String.ofList ('-' :: c :: rest))) : c ≠ 'v' := by
  rintro rfl
  rw [withoutLetters?_switch, withoutLetters?] at h
  split at h
  · cases h
  · have hleft := String.ofList_injective (Option.some.inj h)
    have hlength := (rest.dropWhile_suffix (· = 'v')).length_le
    rw [(List.cons.inj hleft).2] at hlength
    simp at hlength

theorem eq_of_shapeOf_escape (h : shapeOf argument = .escape) : argument = "--" := by
  unfold shapeOf at h
  split at h
  · rename_i hlist
    rw [← String.ofList_toList (s := argument), hlist]
  all_goals cases h

theorem withoutSwitches_cons (hescape : shapeOf argument ≠ .escape) (rest : List String) :
    withoutSwitches (argument :: rest) =
      (withoutSwitch? argument).toList ++ withoutSwitches rest := by
  rw [withoutSwitches]
  split
  · exact absurd ‹_› hescape
  · rfl

theorem withoutSwitches_escape (hescape : shapeOf argument = .escape) (rest : List String) :
    withoutSwitches (argument :: rest) = argument :: rest := by
  rw [withoutSwitches, hescape]

/-- A switch leaves nothing behind, wherever it stands in front of two dashes. -/
theorem withoutSwitches_insert {switch : String} {front : List String}
    (hswitch : switch ∈ ["-v", "--verbose", "--no-color"]) (hfront : "--" ∉ front)
    (back : List String) :
    withoutSwitches (front ++ switch :: back) = withoutSwitches (front ++ back) := by
  induction front with
  | nil =>
    simp only [List.mem_cons, List.not_mem_nil, or_false] at hswitch
    rcases hswitch with rfl | rfl | rfl <;> rfl
  | cons argument front ih =>
    rw [List.mem_cons, not_or] at hfront
    have hescape : shapeOf argument ≠ .escape := fun h => hfront.1 (eq_of_shapeOf_escape h).symm
    rw [List.cons_append, List.cons_append, withoutSwitches_cons hescape,
      withoutSwitches_cons hescape, ih hfront.2]

theorem length_withoutSwitches_le (arguments : List String) :
    (withoutSwitches arguments).length ≤ arguments.length := by
  induction arguments with
  | nil => exact le_rfl
  | cons argument rest ih =>
    by_cases hescape : shapeOf argument = .escape
    · rw [withoutSwitches_escape hescape]
    · rw [withoutSwitches_cons hescape, List.length_append, List.length_cons]
      have hle := Option.length_toList_le (o := withoutSwitch? argument)
      omega

/-- If there are no switches in some arguments, there is none in the first, and none behind it. -/
theorem free_cons {rest : List String} (hescape : shapeOf argument ≠ .escape)
    (hfree : slack ∨ withoutSwitches (argument :: rest) = argument :: rest) :
    (slack ∨ withoutSwitch? argument = some argument) ∧ (slack ∨ withoutSwitches rest = rest) := by
  rcases hfree with hslack | hsame
  · exact ⟨.inl hslack, .inl hslack⟩
  · rw [withoutSwitches_cons hescape] at hsame
    cases hleft : withoutSwitch? argument with
    | none =>
      rw [hleft, Option.toList_none, List.nil_append] at hsame
      have hle := length_withoutSwitches_le rest
      rw [hsame, List.length_cons] at hle
      omega
    | some left =>
      rw [hleft, Option.toList_some, List.singleton_append] at hsame
      obtain ⟨rfl, hrest⟩ := List.cons.inj hsame
      exact ⟨.inr rfl, .inr hrest⟩

/-! ## Long options -/

theorem mem_optionsOf (ho : o.isDisplay = true) (verb : Option Verb) : o ∈ optionsOf verb := by
  rcases verb with _ | verb
  · cases o <;> first | decide | cases ho
  · cases verb <;> cases o <;> first | decide | cases ho

/-- An argument that names an option in its long form, but no switch. -/
theorem agrees_takeLong {body : List Char} (h : Quiets trailing s t)
    (hbody : ∀ o : Opt, o.isDisplay = true → body ≠ o.long.toList) :
    Agrees slack (Quiets trailing) (takeLong options s body) (takeLong options t body) := by
  rw [takeLong, takeLong]
  split
  · exact .error _
  · rename_i o hfind
    split
    · rename_i hvalue
      refine agrees_option h ?_ _
      cases o <;> first | rfl | cases hvalue
    · split
      · exact .error _
      · rename_i hattached
        refine agrees_flag h (Bool.eq_false_iff.2 fun ho => hbody o ho ?_)
        refine eq_long_of_takeWhile (long_of_findLong? hfind) ?_
        split at hattached
        · assumption
        · cases hattached

theorem takeLong_switch (ho : o.isDisplay = true) (verb : Option Verb) (s : Progress) :
    takeLong (optionsOf verb) s o.long.toList = s.flag o := by
  have hvalue : o.valueName? = none := by
    cases o <;> first | rfl | cases ho
  have hbehind : o.long.toList.dropWhile (· != '=') = [] := by
    cases o <;> decide
  rw [takeLong, takeWhile_long, String.ofList_toList, findLong?_long (mem_optionsOf ho verb),
    hbehind]
  simp [hvalue]

/-! ## Letters -/

/-- A letter without a value that is no switch stands for an option that asks for information. -/
theorem Opt.eq_help_or_eq_version (hletter : o.letter?.isSome = true)
    (hvalue : ¬ o.valueName?.isSome = true) (ho : o.isDisplay = false) :
    o = .help ∨ o = .version := by
  cases o <;> first
    | exact .inl rfl
    | exact .inr rfl
    | exact absurd hletter (by decide)
    | exact absurd rfl hvalue
    | exact absurd ho (by decide)

/-- Letters behind a dash, the first of which is no switch. -/
theorem agrees_takeLetters {c : Char} (rest : List Char) (h : Quiets trailing s t) (hc : c ≠ 'v') :
    Agrees slack (Quiets trailing) (takeLetters options s (c :: rest))
      (takeLetters options t (c :: rest)) := by
  rw [takeLetters, takeLetters]
  split
  · exact .error _
  · rename_i o hfind
    have hletter := letter_of_findLetter? hfind
    have ho : o.isDisplay = false := by
      cases o <;> first | rfl | cases hletter
      exact absurd rfl hc
    split
    · split <;> exact agrees_option h ho _
    · rename_i hvalue
      -- The option asks for information, so no letter behind it is read.
      have hinfo := Opt.eq_help_or_eq_version (by rw [hletter]; rfl) hvalue ho
      exact (agrees_interrupt h hinfo).bind fun _ _ => False.elim

theorem takeArgument_letters {c : Char} {rest : List Char} (h : s.trailing = false)
    (hc : c ≠ '-') :
    takeArgument verb s (String.ofList ('-' :: c :: rest)) =
      takeLetters (optionsOf verb) s (c :: rest) := by
  have hshape : shapeOf (String.ofList ('-' :: c :: rest)) = .letters (c :: rest) := by
    unfold shapeOf
    rw [String.toList_ofList]
    split <;> simp_all
  simp only [takeArgument, h, hshape, Bool.false_eq_true, if_false]

theorem findLetter?_switch (verb : Option Verb) :
    findLetter? (optionsOf verb) 'v' = some .verbose := by
  rcases verb with _ | verb
  · decide
  · cases verb <;> decide

theorem findLetter?_dash (verb : Option Verb) : findLetter? (optionsOf verb) '-' = none := by
  rcases verb with _ | verb
  · decide
  · cases verb <;> decide

/-- Letters behind a dash read as what is left of them without the switches in front. -/
theorem agrees_withoutLetters (hslack : slack) (letters : List Char) (h : Quiets false s t) :
    Agrees slack (Quiets false) (takeLetters (optionsOf verb) s letters)
      ((withoutLetters? letters).elim (.ok t) (takeArgument verb t)) := by
  induction letters generalizing s t with
  | nil => exact .ok h
  | cons c rest ih =>
    by_cases hc : c = 'v'
    · rw [hc, takeLetters, findLetter?_switch, withoutLetters?_switch]
      exact (agrees_switch hslack h rfl).bind fun _ _ => ih
    rw [withoutLetters?_cons_of_ne rest hc, Option.elim_some]
    by_cases hdash : c = '-'
    · -- What is left looks like another kind of argument, but there is no such letter.
      rw [hdash, takeLetters, findLetter?_dash]
      exact .refused _ (.inl hslack)
    · rw [takeArgument_letters h.same.2.1 hdash]
      exact agrees_takeLetters rest h hc

/-! ## One argument -/

theorem takePositional_of_lt {p : Positional} (h : (positionalsOf verb)[s.taken]? = some p) :
    takePositional verb s argument =
      s.settle >>= fun u => .ok { u with pending := some (.positional p argument) } := by
  unfold takePositional
  dsimp only
  split
  · rename_i heq
    cases h.symm.trans heq
    rfl
  · rename_i heq
    cases h.symm.trans heq

theorem takePositional_of_le (h : (positionalsOf verb)[s.taken]? = none) :
    IsRefused (takePositional verb s argument) := by
  unfold takePositional
  dsimp only
  split
  · rename_i heq
    cases h.symm.trans heq
  · split
    · exact ⟨_, rfl⟩
    · split <;> exact ⟨_, rfl⟩

theorem agrees_takePositional (h : Quiets trailing s t) :
    Agrees slack (Quiets trailing) (takePositional verb s argument)
      (takePositional verb t argument) := by
  have htaken := h.same.1
  cases hposition : (positionalsOf verb)[s.taken]? with
  | some p =>
    rw [takePositional_of_lt hposition, takePositional_of_lt (by rw [htaken, hposition])]
    refine (agrees_settle h).bind fun a b hab => ?_
    obtain ⟨-, htrailing, rfl⟩ := hab
    exact .ok ⟨nofun, htrailing, .inl rfl⟩
  | none =>
    exact .of_isRefused (takePositional_of_le hposition)
      (takePositional_of_le (by rw [htaken, hposition]))

/-- An argument that is the value of an option, or a positional one. -/
theorem agrees_takePlain (h : Quiets false s t) (hshape : shapeOf argument = .plain) :
    Agrees slack (Quiets false) (takeArgument verb s argument) (takeArgument verb t argument) := by
  have htrailing : t.trailing = false := h.same.2.1
  simp only [takeArgument, h.trailing, htrailing, hshape, Bool.false_eq_true, if_false]
  obtain rfl | ⟨hpending, hsettle⟩ := h.eq
  · have hsame : s.quiet.pending = s.pending := rfl
    rw [hsame]
    split
    · rename_i o hpending
      refine .ok ⟨fun o' value h' => ?_, rfl, .inl rfl⟩
      cases h'
      exact h.sound o none hpending
    · exact agrees_takePositional h
  · rw [hpending]
    split
    · rename_i heq
      cases heq
    · split
      · rename_i hother
        rw [settle, hother] at hsettle
        cases hsettle
      · exact agrees_takePositional h

theorem agrees_takeLongArgument {body : List Char} (h : Quiets false s t)
    (hshape : shapeOf argument = .long body)
    (hfree : slack ∨ withoutSwitch? argument = some argument) :
    Agrees slack (Quiets false) (takeArgument verb s argument)
      ((withoutSwitch? argument).elim (.ok t) (takeArgument verb t)) := by
  have htrailing : t.trailing = false := h.same.2.1
  by_cases hbody : body = Opt.verbose.long.toList ∨ body = Opt.noColor.long.toList
  · have hnone : withoutSwitch? argument = none := by
      rw [withoutSwitch?, hshape]
      exact if_pos hbody
    have hslack : slack := hfree.resolve_right (by rw [hnone]; nofun)
    simp only [takeArgument, h.trailing, hshape, hnone, Bool.false_eq_true, if_false]
    rcases hbody with rfl | rfl
    · rw [takeLong_switch rfl]
      exact agrees_switch hslack h rfl
    · rw [takeLong_switch rfl]
      exact agrees_switch hslack h rfl
  · have hsome : withoutSwitch? argument = some argument := by
      rw [withoutSwitch?, hshape]
      exact if_neg hbody
    simp only [takeArgument, h.trailing, htrailing, hshape, hsome, Option.elim_some,
      Bool.false_eq_true, if_false]
    refine agrees_takeLong h fun o ho heq => hbody ?_
    rcases Opt.eq_of_isDisplay ho with rfl | rfl
    · exact .inl heq
    · exact .inr heq

theorem eq_of_shapeOf_letters {body : List Char} (h : shapeOf argument = .letters body) :
    ∃ c rest, body = c :: rest ∧ argument = String.ofList ('-' :: c :: rest) ∧ c ≠ '-' := by
  unfold shapeOf at h
  split at h
  · cases h
  · cases h
  · rename_i c rest _ hdash hlist
    cases h
    exact ⟨c, rest, rfl, by rw [← hlist, String.ofList_toList], hdash⟩
  · cases h

theorem agrees_takeLettersArgument {body : List Char} (h : Quiets false s t)
    (hshape : shapeOf argument = .letters body)
    (hfree : slack ∨ withoutSwitch? argument = some argument) :
    Agrees slack (Quiets false) (takeArgument verb s argument)
      ((withoutSwitch? argument).elim (.ok t) (takeArgument verb t)) := by
  have hswitch : withoutSwitch? argument = withoutLetters? body := by
    rw [withoutSwitch?, hshape]
  obtain ⟨c, rest, rfl, rfl, hdash⟩ := eq_of_shapeOf_letters hshape
  rw [hswitch] at hfree ⊢
  rw [takeArgument_letters h.trailing hdash]
  rcases hfree with hslack | hsome
  · exact agrees_withoutLetters hslack _ h
  · rw [hsome, Option.elim_some, takeArgument_letters h.same.2.1 hdash]
    exact agrees_takeLetters rest h (ne_of_withoutLetters? hsome)

/-- An argument is read as what is left of it without the switches.  If usage errors count, there
may be no switches in it, since one of them may be repeated. -/
theorem agrees_takeArgument (h : Quiets false s t) (hescape : shapeOf argument ≠ .escape)
    (hfree : slack ∨ withoutSwitch? argument = some argument) :
    Agrees slack (Quiets false) (takeArgument verb s argument)
      ((withoutSwitch? argument).elim (.ok t) (takeArgument verb t)) := by
  cases hshape : shapeOf argument with
  | escape => exact absurd hshape hescape
  | plain =>
    rw [withoutSwitch?, hshape]
    exact agrees_takePlain h hshape
  | long body => exact agrees_takeLongArgument h hshape hfree
  | letters body => exact agrees_takeLettersArgument h hshape hfree

/-! ## Behind the name of a command -/

theorem agrees_takeEscape (h : Quiets false s t) (hshape : shapeOf argument = .escape) :
    Agrees slack (Quiets true) (takeArgument verb s argument) (takeArgument verb t argument) := by
  simp only [takeArgument, h.trailing, h.same.2.1, hshape, Bool.false_eq_true, if_false]
  exact .ok h.escape

theorem takeAll_append {verb : Verb} (left : Option String) (rest : List String) :
    takeAll verb t (left.toList ++ rest) =
      left.elim (.ok t) (takeArgument (some verb) t) >>= fun u => takeAll verb u rest := by
  cases left <;> rfl

/-- Behind two dashes, arguments are read alike. -/
theorem agrees_takeAll_trailing {verb : Verb} {arguments : List String} (h : Quiets true s t) :
    Agrees slack (Quiets true) (takeAll verb s arguments) (takeAll verb t arguments) := by
  induction arguments generalizing s t with
  | nil => exact .ok h
  | cons argument rest ih =>
    have hpositional : Agrees slack (Quiets true) (takeArgument (some verb) s argument)
        (takeArgument (some verb) t argument) := by
      have htrailing : t.trailing = true := h.same.2.1
      simp only [takeArgument, h.trailing, htrailing, if_true]
      exact agrees_takePositional h
    exact hpositional.bind fun _ _ => ih

theorem agrees_takeAll {verb : Verb} {arguments : List String} (h : Quiets false s t)
    (hfree : slack ∨ withoutSwitches arguments = arguments) :
    Agrees slack (fun a b => ∃ trailing, Quiets trailing a b) (takeAll verb s arguments)
      (takeAll verb t (withoutSwitches arguments)) := by
  induction arguments generalizing s t with
  | nil => exact .ok ⟨false, h⟩
  | cons argument rest ih =>
    by_cases hescape : shapeOf argument = .escape
    · rw [withoutSwitches_escape hescape]
      refine (agrees_takeEscape h hescape).bind fun a b hab => ?_
      exact (agrees_takeAll_trailing hab).mono fun _ _ h => ⟨true, h⟩
    · obtain ⟨hargument, hrest⟩ := free_cons hescape hfree
      rw [withoutSwitches_cons hescape, takeAll_append]
      exact (agrees_takeArgument h hescape hargument).bind fun _ _ hab => ih hab hrest

theorem agrees_parseCommand {environment : Option String} {verb : Verb} {arguments : List String}
    (hfree : slack ∨ withoutSwitches arguments = arguments) :
    Agrees slack (fun a b => b = (a.1.quiet, a.2)) (parseCommand environment verb arguments)
      (parseCommand environment verb (withoutSwitches arguments)) := by
  refine (agrees_takeAll quiets_start hfree).bind fun a b ⟨trailing, hab⟩ => ?_
  refine (agrees_settle hab).bind fun a b hab => ?_
  rw [hab.eq]
  refine (agrees_addEnvironment a).bind fun a b hab => ?_
  rw [hab, checkConflicts_quiet, commandOf_quiet]
  refine (Agrees.same _).bind fun _ _ _ => (Agrees.same _).bind fun command _ hcommand => ?_
  rw [← hcommand]
  exact .ok rfl

/-! ## In front of the name of a command -/

/-- There is no request without a command. -/
theorem parseFrom_nil (environment : Option String) (s : Progress) :
    IsRefused (parseFrom environment s []) := by
  rw [parseFrom]
  refine (asksNothing_settle s).isRefused_bind fun settled =>
    (asksNothing_addEnvironment environment settled).isRefused_bind fun ended => ?_
  split <;> exact ⟨_, rfl⟩

theorem shapeOf_of_ofName? {verb : Verb} (h : Verb.ofName? argument = some verb) :
    shapeOf argument = .plain := by
  have hnames : ∀ v ∈ verbNames, shapeOf v.1 = .plain := by
    simp only [verbNames, List.forall_mem_cons]
    exact ⟨rfl, rfl, rfl, rfl, rfl, rfl, rfl, rfl, nofun⟩
  obtain ⟨v, hfind, -⟩ := Option.map_eq_some_iff.1 h
  have hname : v.1 = argument := by
    simpa using List.find?_some hfind
  rw [← hname]
  exact hnames v (List.mem_of_find?_eq_some hfind)

/-- An argument with a dash in front is never the name of a command. -/
theorem parseFrom_of_dashed {environment : Option String} (h : shapeOf argument ≠ .plain)
    (rest : List String) :
    parseFrom environment s (argument :: rest) =
      takeArgument none s argument >>= fun t => parseFrom environment t rest := by
  rw [parseFrom]
  split
  · rfl
  · split
    · rename_i hhelp
      obtain rfl : argument = "help" := by simpa using hhelp
      exact absurd rfl h
    · split
      · rfl
      · exact absurd (shapeOf_of_ofName? ‹_›) h

/-- Behind two dashes there is no command any more. -/
theorem parseFrom_of_trailing {environment : Option String} (h : s.trailing = true)
    (arguments : List String) : IsRefused (parseFrom environment s arguments) := by
  cases arguments with
  | nil => exact parseFrom_nil environment s
  | cons argument rest =>
    rw [parseFrom, h, Bool.true_or, if_pos rfl, takeArgument, if_pos h]
    exact (takePositional_of_le rfl).bind

theorem shapeOf_of_withoutSwitch? {left : String} (h : withoutSwitch? argument = some left)
    (hplain : shapeOf argument ≠ .plain) : shapeOf left ≠ .plain := by
  have hdashed : ∀ (c : Char) (rest : List Char),
      shapeOf (String.ofList ('-' :: c :: rest)) ≠ .plain := by
    intro c rest
    unfold shapeOf
    rw [String.toList_ofList]
    split <;> simp_all
  unfold withoutSwitch? at h
  split at h
  · split at h <;> cases h
    exact hplain
  · unfold withoutLetters? at h
    split at h
    · cases h
    · rename_i hne
      obtain ⟨c, rest, hleft⟩ := List.exists_cons_of_ne_nil hne
      rw [hleft] at h
      cases h
      exact hdashed c rest
  · cases h
    exact hplain
  · cases h
    exact hplain

theorem parseFrom_append {environment : Option String} {left : Option String}
    (h : ∀ argument, left = some argument → shapeOf argument ≠ .plain) (rest : List String) :
    parseFrom environment t (left.toList ++ rest) =
      left.elim (.ok t) (takeArgument none t) >>= fun u => parseFrom environment u rest := by
  cases left with
  | none => rfl
  | some argument => exact parseFrom_of_dashed (h argument rfl) rest

theorem exists_topic_of_helpTopic {names : List String} {request : Request}
    (h : helpTopic names = .ok request) : ∃ topic, request = .help topic := by
  unfold helpTopic at h
  split at h
  · cases h
    exact ⟨_, rfl⟩
  · split at h <;> cases h
    exact ⟨_, rfl⟩

theorem withoutSwitches_of_topic {name : String} {topic : Topic}
    (h : Topic.ofName? name = some topic) : withoutSwitches [name] = [name] := by
  have hshape : shapeOf name = .plain := by
    rw [Topic.ofName?] at h
    split at h
    · rename_i hhelp
      rw [hhelp]
      rfl
    · obtain ⟨verb, hverb, -⟩ := Option.map_eq_some_iff.1 h
      exact shapeOf_of_ofName? hverb
  rw [withoutSwitches_cons (by rw [hshape]; nofun), withoutSwitch?, hshape]
  rfl

theorem agrees_helpTopic {names : List String} (hfree : slack ∨ withoutSwitches names = names) :
    Agrees slack (fun a b => b = a.quiet) (helpTopic names)
      (helpTopic (withoutSwitches names)) := by
  rcases hfree with hslack | hsame
  · rcases names with _ | ⟨name, more⟩
    · exact .ok rfl
    cases hname : Topic.ofName? name with
    | none =>
      have hunknown : helpTopic (name :: more) = .error (.usage (.unknownCommand name)) := by
        simp only [helpTopic, hname]
      rw [hunknown]
      exact .refused _ (.inl hslack)
    | some topic =>
      cases more with
      | cons second more =>
        have hunknown : helpTopic (name :: second :: more) =
            .error (.usage (.unknownCommand second)) := by
          simp only [helpTopic, hname]
        rw [hunknown]
        exact .refused _ (.inl hslack)
      | nil =>
        have hhelp : helpTopic [name] = .ok (.help topic) := by
          simp only [helpTopic, hname]
        rw [withoutSwitches_of_topic hname, hhelp]
        exact .ok rfl
  · rw [hsame]
    cases hhelp : helpTopic names with
    | error e => exact .error e
    | ok request =>
      obtain ⟨topic, rfl⟩ := exists_topic_of_helpTopic hhelp
      exact .ok rfl

/-- A command line is read as what is left of it without the switches. -/
theorem agrees_parseFrom {environment : Option String} {arguments : List String}
    (h : Quiets false s t) (hfree : slack ∨ withoutSwitches arguments = arguments) :
    Agrees slack (fun a b => b = a.quiet) (parseFrom environment s arguments)
      (parseFrom environment t (withoutSwitches arguments)) := by
  induction arguments generalizing s t with
  | nil => exact .of_isRefused (parseFrom_nil environment s) (parseFrom_nil environment t)
  | cons argument rest ih =>
    -- Nothing is taken out behind an escape, and whatever stands there is refused.
    by_cases hescape : shapeOf argument = .escape
    · have hplain : shapeOf argument ≠ .plain := by rw [hescape]; nofun
      rw [withoutSwitches_escape hescape, parseFrom_of_dashed hplain, parseFrom_of_dashed hplain]
      refine (agrees_takeEscape h hescape).bind fun a b hab => ?_
      exact .of_isRefused (parseFrom_of_trailing hab.trailing rest)
        (parseFrom_of_trailing hab.same.2.1 rest)
    obtain ⟨hargument, hrest⟩ := free_cons hescape hfree
    have htaken : Agrees slack (Quiets false) (takeArgument none s argument)
        ((withoutSwitch? argument).elim (.ok t) (takeArgument none t)) :=
      agrees_takeArgument h hescape hargument
    rw [withoutSwitches_cons hescape]
    by_cases hplain : shapeOf argument = .plain
    · have hsome : withoutSwitch? argument = some argument := by
        rw [withoutSwitch?, hplain]
      rw [hsome] at htaken ⊢
      rw [Option.toList_some, List.singleton_append, parseFrom, parseFrom, h.trailing,
        h.same.2.1, h.same.2.2]
      split
      · exact htaken.bind fun _ _ hab => ih hab hrest
      split
      · exact agrees_helpTopic hrest
      split
      · exact htaken.bind fun _ _ hab => ih hab hrest
      · refine ((agrees_parseCommand hrest).mapError fun _ => rfl).bind fun a b hab => ?_
        refine (agrees_settle h).bind fun front front' hfront => ?_
        rw [hfront.eq, hab]
        refine (agrees_addEnvironment front).bind fun front front' hfront => ?_
        rw [hfront, globalsOf_quiet]
        exact .ok rfl
    · rw [parseFrom_of_dashed hplain,
        parseFrom_append fun _ hleft => shapeOf_of_withoutSwitch? hleft hplain]
      exact htaken.bind fun _ _ hab => ih hab hrest

/-- A command line that is understood is understood without its switches, and means the same but
for them. -/
theorem parse_withoutSwitches {environment : Option String} {arguments : List String}
    {request : Request} (h : parse environment arguments = .ok request) :
    parse environment (withoutSwitches arguments) = .ok request.quiet := by
  have hread : Agrees True (fun a b => b = a.quiet) (parseFrom environment .start arguments)
      (parseFrom environment .start (withoutSwitches arguments)) :=
    agrees_parseFrom quiets_start (.inl trivial)
  unfold parse at h ⊢
  generalize parseFrom environment .start arguments = x at h hread
  generalize parseFrom environment .start (withoutSwitches arguments) = y at hread ⊢
  cases hread with
  | ok hquiet =>
    cases h
    exact congrArg Except.ok hquiet
  | error e =>
    cases e <;> cases h <;> rfl
  | refused e _ => cases h

theorem parseFrom_switch {environment : Option String} (hdashed : shapeOf argument ≠ .plain)
    (htake : takeArgument none s argument = .ok t) (rest : List String) :
    parseFrom environment s (argument :: rest) = parseFrom environment t rest := by
  rw [parseFrom_of_dashed hdashed, htake]
  rfl

theorem exists_parseFrom_switches {switches : List String}
    (h : switches.Sublist ["-v", "--no-color"]) (environment : Option String)
    (arguments : List String) :
    ∃ s, Quiets false s .start ∧
      parseFrom environment .start (switches ++ arguments) = parseFrom environment s arguments := by
  have hverbose : shapeOf "-v" ≠ .plain := by
    rw [show shapeOf "-v" = .letters ['v'] from rfl]
    nofun
  have hcolour : shapeOf "--no-color" ≠ .plain := by
    rw [show shapeOf "--no-color" = .long Opt.noColor.long.toList from rfl]
    nofun
  have hmem : switches ∈ [[], ["-v"], ["--no-color"], ["-v", "--no-color"]] :=
    List.mem_sublists.2 h
  simp only [List.mem_cons, List.not_mem_nil, or_false] at hmem
  rcases hmem with rfl | rfl | rfl | rfl
  · exact ⟨.start, quiets_start, rfl⟩
  · exact ⟨⟨[(.verbose, "")], [], none, false⟩, ⟨nofun, rfl, .inl rfl⟩,
      parseFrom_switch hverbose rfl arguments⟩
  · exact ⟨⟨[(.noColor, "")], [], none, false⟩, ⟨nofun, rfl, .inl rfl⟩,
      parseFrom_switch hcolour rfl arguments⟩
  · exact ⟨⟨[(.verbose, ""), (.noColor, "")], [], none, false⟩, ⟨nofun, rfl, .inl rfl⟩,
      (parseFrom_switch hverbose rfl _).trans (parseFrom_switch hcolour rfl arguments)⟩

/-- A command line without switches is understood with switches in front of it. -/
theorem parse_switches {environment : Option String} {arguments switches : List String}
    {request : Request} (hswitches : switches.Sublist ["-v", "--no-color"])
    (hfree : withoutSwitches arguments = arguments)
    (h : parse environment arguments = .ok request) :
    ∃ given, parse environment (switches ++ arguments) = .ok given ∧ request = given.quiet := by
  obtain ⟨s, hs, hread⟩ := exists_parseFrom_switches hswitches environment arguments
  have hagrees : Agrees False (fun a b => b = a.quiet) (parseFrom environment s arguments)
      (parseFrom environment .start (withoutSwitches arguments)) :=
    agrees_parseFrom hs (.inr hfree)
  rw [hfree] at hagrees
  unfold parse at h ⊢
  rw [hread]
  generalize parseFrom environment s arguments = x at hagrees
  generalize parseFrom environment .start arguments = y at h hagrees
  cases hagrees with
  | ok hquiet =>
    cases h
    exact ⟨_, rfl, hquiet⟩
  | error e =>
    cases e <;> cases h <;> exact ⟨_, rfl, rfl⟩
  | refused e hrefused =>
    obtain ⟨e', rfl⟩ := hrefused.resolve_left id
    cases h

end

end ManifestAtlas.CommandLine
