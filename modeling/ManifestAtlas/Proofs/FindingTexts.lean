import Mathlib
import ManifestAtlas.Report.Finding

/-!
# What a report tells of a finding

A finding is made of identifiers, and its report runs them together with fixed
words.  So the report may leave open where one identifier ends and the next one
begins, and two findings may look the same.  This module says when they do.

* The first words of a message tell which check it comes from
  (`check_eq_of_opening_prefix`); `message_eq_iff` splits a message into these
  words and the rest.
* `Finding.ReadsLike` lists, check by check, what can be read back from a
  report.  Two findings have the same report exactly if they read alike
  (`diagnostic_eq_iff`).
-/

namespace ManifestAtlas

/-! ## Checks and messages -/

/-- The checks of the lint. -/
inductive Check where
  | duplicateId (kind : IdKind)
  | sharedNode (kind : NodeKind)
  | externalDependency
  | dependencyCycle
  | noSteps
  | sharedOrder
  | unknownRule
  | noStates
  | severalInitial
  | noInitial
  | unknownState
  deriving DecidableEq, Repr

namespace Check

/-- The checks, one after the other. -/
def all : List Check :=
  [.duplicateId .module, .duplicateId .flow, .duplicateId .rule, .duplicateId .stateMachine,
    .duplicateId .state, .sharedNode .modules, .sharedNode .dependencies, .externalDependency,
    .dependencyCycle, .noSteps, .sharedOrder, .unknownRule, .noStates, .severalInitial,
    .noInitial, .unknownState]

theorem mem_all (check : Check) : check ∈ all := by
  cases check with
  | duplicateId kind => cases kind <;> decide
  | sharedNode kind => cases kind <;> decide
  | _ => decide

/-- How bad the findings of a check are. -/
def severity : Check → Severity
  | .externalDependency | .dependencyCycle | .noSteps | .sharedOrder | .noInitial => .note
  | _ => .warning

/-- The first words of the messages of a check. -/
def opening : Check → String
  | .duplicateId kind => "duplicate " ++ kind.word ++ " id `"
  | .sharedNode kind => kind.word ++ " "
  | .externalDependency => "dependency `"
  | .dependencyCycle => "dependency cycle: "
  | .noSteps => "flow `"
  | .sharedOrder => "several steps share order "
  | .unknownRule => "step references unknown rule `"
  | .noStates => "state machine `"
  | .severalInitial => "several initial states: "
  | .noInitial => "no state is flagged initial"
  | .unknownState => "transition references unknown state `"

/-- No message of one check starts with the first words of another. -/
theorem eq_of_opening_prefix {a b : Check} (h : a.opening.toList <+: b.opening.toList) : a = b := by
  have hall : ∀ a ∈ all, ∀ b ∈ all, a.opening.toList <+: b.opening.toList → a = b := by
    decide +kernel
  exact hall a a.mem_all b b.mem_all h

end Check

namespace Finding

/-- The check that a finding comes from. -/
def check : Finding → Check
  | .duplicateId kind _ _ => .duplicateId kind
  | .sharedNode kind _ _ => .sharedNode kind
  | .externalDependency _ _ => .externalDependency
  | .dependencyCycle _ => .dependencyCycle
  | .noSteps _ _ => .noSteps
  | .sharedOrder _ _ _ => .sharedOrder
  | .unknownRule _ _ _ _ => .unknownRule
  | .noStates _ _ => .noStates
  | .severalInitial _ _ _ _ => .severalInitial
  | .noInitial _ _ _ => .noInitial
  | .unknownState _ _ _ _ _ => .unknownState

/-- What the message of a finding says behind its first words. -/
def details : Finding → String
  | .duplicateId _ scope id => id ++ ("` in " ++ scope.word)
  | .sharedNode _ node ids =>
    commaList (ids.map ticked) ++ (" share diagram node `" ++ (node ++ "`"))
  | .externalDependency id _ => id ++ "` is not a module of this manifest"
  | .dependencyCycle ids => " -> ".intercalate ids
  | .noSteps _ flow => flow ++ "` has no steps"
  | .sharedOrder _ _ order => toString order
  | .unknownRule _ _ _ rule => rule ++ "`"
  | .noStates _ machine => machine ++ "` has no states"
  | .severalInitial _ _ first others => commaList (first :: others)
  | .noInitial _ _ _ => ""
  | .unknownState _ _ _ _ id => id ++ "`"

theorem severity_eq_severity_check (f : Finding) : f.severity = f.check.severity := by
  cases f <;> rfl

theorem message_eq (f : Finding) : f.message = f.check.opening ++ f.details := by
  cases f with
  | duplicateId kind scope id =>
    show "duplicate " ++ kind.word ++ " id `" ++ id ++ "` in " ++ scope.word = _
    simp only [details, check, Check.opening, String.append_assoc]
  | sharedNode kind node ids =>
    show kind.word ++ " " ++ commaList (ids.map ticked) ++ " share diagram node `" ++ node ++ "`" =
      _
    simp only [details, check, Check.opening, String.append_assoc]
  | externalDependency id dependants => exact String.append_assoc
  | dependencyCycle ids => rfl
  | noSteps module flow => exact String.append_assoc
  | sharedOrder module flow order => rfl
  | unknownRule module flow step rule => exact String.append_assoc
  | noStates module machine => exact String.append_assoc
  | severalInitial module machine first others => rfl
  | noInitial module machine first => rfl
  | unknownState module machine source target id => exact String.append_assoc

variable {f g : Finding}

/-- A message that starts with the first words of a check comes from that check. -/
theorem check_eq_of_opening_prefix {check : Check}
    (h : check.opening.toList <+: f.message.toList) : f.check = check := by
  have hown : f.check.opening.toList <+: f.message.toList := by
    rw [message_eq, String.toList_append]
    exact List.prefix_append _ _
  rcases List.prefix_or_prefix_of_prefix hown h with hprefix | hprefix
  · exact Check.eq_of_opening_prefix hprefix
  · exact (Check.eq_of_opening_prefix hprefix).symm

theorem message_eq_iff : f.message = g.message ↔ f.check = g.check ∧ f.details = g.details := by
  constructor
  · intro h
    have hcheck : f.check = g.check := by
      refine check_eq_of_opening_prefix ?_
      rw [h, message_eq, String.toList_append]
      exact List.prefix_append _ _
    rw [message_eq, message_eq, hcheck, String.append_right_inj] at h
    exact ⟨hcheck, h⟩
  · intro h
    rw [message_eq, message_eq, h.1, h.2]

theorem diagnostic_eq_iff_parts :
    f.diagnostic = g.diagnostic ↔ f.check = g.check ∧ f.details = g.details ∧
      f.context = g.context ∧ f.suggestions = g.suggestions := by
  simp only [diagnostic, Diagnostic.mk.injEq, message_eq_iff, severity_eq_severity_check, and_true]
  constructor
  · rintro ⟨_, ⟨hcheck, hdetails⟩, hcontext, hsuggestions⟩
    exact ⟨hcheck, hdetails, hcontext, hsuggestions⟩
  · rintro ⟨hcheck, hdetails, hcontext, hsuggestions⟩
    exact ⟨congrArg Check.severity hcheck, ⟨hcheck, hdetails⟩, hcontext, hsuggestions⟩

/-! ## Contexts -/

section

variable (module flow machine step source target rule id : String)

theorem inFlow_eq : inFlow module flow = "in flow `" ++ (module ++ ("/" ++ flow)) ++ "`" := by
  show "in flow `" ++ module ++ "/" ++ flow ++ "`" = _
  simp only [String.append_assoc]

theorem inMachine_eq :
    inMachine module machine = "in state machine `" ++ (module ++ ("/" ++ machine)) ++ "`" := by
  show "in state machine `" ++ module ++ "/" ++ machine ++ "`" = _
  simp only [String.append_assoc]

theorem context_unknownRule :
    (unknownRule module flow step rule).context =
      ["in flow `" ++ (module ++ ("/" ++ (flow ++ ("`, step `" ++ step)))) ++ "`"] := by
  have hmark : "`, step `" = "`" ++ ", step `" := rfl
  show [inFlow module flow ++ ", step `" ++ step ++ "`"] = _
  simp only [inFlow_eq, hmark, String.append_assoc]

theorem context_unknownState :
    (unknownState module machine source target id).context =
      ["in state machine `" ++ (module ++ ("/" ++ (machine ++ ("`, transition `" ++
        (source ++ (" -> " ++ target)))))) ++ "`"] := by
  have hmark : "`, transition `" = "`" ++ ", transition `" := rfl
  show [inMachine module machine ++ ", transition `" ++ source ++ " -> " ++ target ++ "`"] = _
  simp only [inMachine_eq, hmark, String.append_assoc]

end

section

variable {module flow machine step source target rule id : String}
variable {module' flow' machine' step' source' target' id' : String}

theorem inFlow_inj : inFlow module flow = inFlow module' flow' ↔
    module ++ ("/" ++ flow) = module' ++ ("/" ++ flow') := by
  rw [inFlow_eq, inFlow_eq, String.append_left_inj, String.append_right_inj]

theorem inMachine_inj : inMachine module machine = inMachine module' machine' ↔
    module ++ ("/" ++ machine) = module' ++ ("/" ++ machine') := by
  rw [inMachine_eq, inMachine_eq, String.append_left_inj, String.append_right_inj]

theorem context_unknownRule_inj :
    (unknownRule module flow step rule).context = (unknownRule module flow' step' rule).context ↔
      flow ++ ("`, step `" ++ step) = flow' ++ ("`, step `" ++ step') := by
  simp only [context_unknownRule, List.cons.injEq, and_true, String.append_left_inj,
    String.append_right_inj]

theorem context_unknownState_inj :
    (unknownState module machine source target id).context =
        (unknownState module' machine' source' target' id).context ↔
      module ++ ("/" ++ (machine ++ ("`, transition `" ++ (source ++ (" -> " ++ target))))) =
        module' ++ ("/" ++ (machine' ++ ("`, transition `" ++
          (source' ++ (" -> " ++ target'))))) := by
  simp only [context_unknownState, List.cons.injEq, and_true, String.append_left_inj,
    String.append_right_inj]

end

/-- A sign occurs in a negative number only. -/
theorem repr_ne_neg_append (n : Nat) (text : String) : n.repr ≠ "-" ++ text := by
  intro h
  have hmem : '-' ∈ n.repr.toList := by
    rw [h, String.toList_append]
    exact List.mem_append_left _ (List.mem_singleton_self _)
  rw [Nat.toList_repr] at hmem
  exact absurd (Nat.isDigit_of_mem_toDigits (by decide) (by decide) hmem) (by decide)

theorem order_eq_of_toString_eq {a b : Int64} (h : toString a = toString b) : a = b := by
  have hrepr : a.toInt.repr = b.toInt.repr := h
  rw [Int.repr_eq_if, Int.repr_eq_if] at hrepr
  refine Int64.toInt_inj.1 ?_
  split at hrepr <;> split at hrepr
  · have := Nat.repr_inj.1 hrepr
    omega
  · exact absurd hrepr (repr_ne_neg_append _ _)
  · exact absurd hrepr.symm (repr_ne_neg_append _ _)
  · have := Nat.repr_inj.1 ((String.append_right_inj _).1 hrepr)
    omega

/-! ## Findings that read alike -/

/-- What can be read back from the report of a finding is the same for two findings. -/
inductive ReadsLike : Finding → Finding → Prop where
  | duplicateId (kind : IdKind) {scope scope' : Scope} {id id' : String}
      (h : id ++ ("` in " ++ scope.word) = id' ++ ("` in " ++ scope'.word)) :
      ReadsLike (.duplicateId kind scope id) (.duplicateId kind scope' id')
  | sharedNode (kind : NodeKind) {node node' : String} {ids ids' : List String}
      (h : commaList (ids.map ticked) ++ (" share diagram node `" ++ node) =
        commaList (ids'.map ticked) ++ (" share diagram node `" ++ node')) :
      ReadsLike (.sharedNode kind node ids) (.sharedNode kind node' ids')
  | externalDependency (id : String) {dependants dependants' : List String}
      (h : commaList dependants = commaList dependants') :
      ReadsLike (.externalDependency id dependants) (.externalDependency id dependants')
  | dependencyCycle {ids ids' : List String}
      (h : " -> ".intercalate ids = " -> ".intercalate ids') :
      ReadsLike (.dependencyCycle ids) (.dependencyCycle ids')
  | noSteps (module flow : String) : ReadsLike (.noSteps module flow) (.noSteps module flow)
  | sharedOrder (order : Int64) {module flow module' flow' : String}
      (h : module ++ ("/" ++ flow) = module' ++ ("/" ++ flow')) :
      ReadsLike (.sharedOrder module flow order) (.sharedOrder module' flow' order)
  | unknownRule (module rule : String) {flow step flow' step' : String}
      (h : flow ++ ("`, step `" ++ step) = flow' ++ ("`, step `" ++ step')) :
      ReadsLike (.unknownRule module flow step rule) (.unknownRule module flow' step' rule)
  | noStates (module machine : String) :
      ReadsLike (.noStates module machine) (.noStates module machine)
  | severalInitial (first : String) {module machine module' machine' : String}
      {others others' : List String}
      (hplace : module ++ ("/" ++ machine) = module' ++ ("/" ++ machine'))
      (hall : commaList (first :: others) = commaList (first :: others')) :
      ReadsLike (.severalInitial module machine first others)
        (.severalInitial module' machine' first others')
  | noInitial (first : String) {module machine module' machine' : String}
      (h : module ++ ("/" ++ machine) = module' ++ ("/" ++ machine')) :
      ReadsLike (.noInitial module machine first) (.noInitial module' machine' first)
  | unknownState (id : String)
      {module machine source target module' machine' source' target' : String}
      (h : module ++ ("/" ++ (machine ++ ("`, transition `" ++ (source ++ (" -> " ++ target))))) =
        module' ++ ("/" ++ (machine' ++ ("`, transition `" ++
          (source' ++ (" -> " ++ target')))))) :
      ReadsLike (.unknownState module machine source target id)
        (.unknownState module' machine' source' target' id)

private theorem readsLike_of_diagnostic_eq (h : f.diagnostic = g.diagnostic) : f.ReadsLike g := by
  obtain ⟨hcheck, hdetails, hcontext, hsuggestions⟩ := diagnostic_eq_iff_parts.1 h
  -- The check decides the constructor, so that only pairs of one constructor are left.
  cases f with
  | duplicateId kind scope id =>
    cases g with
    | duplicateId kind' scope' id' =>
      cases hcheck
      exact .duplicateId kind hdetails
    | _ => cases hcheck
  | sharedNode kind node ids =>
    cases g with
    | sharedNode kind' node' ids' =>
      cases hcheck
      refine .sharedNode kind ?_
      simpa only [details, ← String.append_assoc, String.append_left_inj] using hdetails
    | _ => cases hcheck
  | externalDependency id dependants =>
    cases g with
    | externalDependency id' dependants' =>
      obtain rfl : id = id' := (String.append_left_inj _).1 hdetails
      have hneeded : "required by: " ++ commaList dependants =
          "required by: " ++ commaList dependants' := (List.cons.inj hcontext).1
      exact .externalDependency id ((String.append_right_inj _).1 hneeded)
    | _ => cases hcheck
  | dependencyCycle ids =>
    cases g with
    | dependencyCycle ids' => exact .dependencyCycle hdetails
    | _ => cases hcheck
  | noSteps module flow =>
    cases g with
    | noSteps module' flow' =>
      obtain rfl : flow = flow' := (String.append_left_inj _).1 hdetails
      obtain rfl : module = module' :=
        (String.append_left_inj _).1 (inFlow_inj.1 (List.cons.inj hcontext).1)
      exact .noSteps module flow
    | _ => cases hcheck
  | sharedOrder module flow order =>
    cases g with
    | sharedOrder module' flow' order' =>
      obtain rfl : order = order' := order_eq_of_toString_eq hdetails
      exact .sharedOrder order (inFlow_inj.1 (List.cons.inj hcontext).1)
    | _ => cases hcheck
  | unknownRule module flow step rule =>
    cases g with
    | unknownRule module' flow' step' rule' =>
      obtain rfl : rule = rule' := (String.append_left_inj _).1 hdetails
      have hmodule : "Add rule `" ++ rule ++ "` to module `" ++ module ++
          "` or remove the reference" = "Add rule `" ++ rule ++ "` to module `" ++ module' ++
            "` or remove the reference" := (List.cons.inj hsuggestions).1
      obtain rfl : module = module' := by
        simpa only [String.append_left_inj, String.append_right_inj] using hmodule
      exact .unknownRule module rule (context_unknownRule_inj.1 hcontext)
    | _ => cases hcheck
  | noStates module machine =>
    cases g with
    | noStates module' machine' =>
      obtain rfl : machine = machine' := (String.append_left_inj _).1 hdetails
      obtain rfl : module = module' :=
        (String.append_left_inj _).1 (inMachine_inj.1 (List.cons.inj hcontext).1)
      exact .noStates module machine
    | _ => cases hcheck
  | severalInitial module machine first others =>
    cases g with
    | severalInitial module' machine' first' others' =>
      have hfirst : "only `" ++ first ++ "` gets the start arrow" =
          "only `" ++ first' ++ "` gets the start arrow" :=
        (List.cons.inj (List.cons.inj hcontext).2).1
      obtain rfl : first = first' := by
        simpa only [String.append_left_inj, String.append_right_inj] using hfirst
      exact .severalInitial first (inMachine_inj.1 (List.cons.inj hcontext).1) hdetails
    | _ => cases hcheck
  | noInitial module machine first =>
    cases g with
    | noInitial module' machine' first' =>
      have hfirst : "`" ++ first ++ "` is used as the initial state" =
          "`" ++ first' ++ "` is used as the initial state" :=
        (List.cons.inj (List.cons.inj hcontext).2).1
      obtain rfl : first = first' := by
        simpa only [String.append_left_inj, String.append_right_inj] using hfirst
      exact .noInitial first (inMachine_inj.1 (List.cons.inj hcontext).1)
    | _ => cases hcheck
  | unknownState module machine source target id =>
    cases g with
    | unknownState module' machine' source' target' id' =>
      obtain rfl : id = id' := (String.append_left_inj _).1 hdetails
      exact .unknownState id (context_unknownState_inj.1 hcontext)
    | _ => cases hcheck

private theorem diagnostic_eq_of_readsLike (h : f.ReadsLike g) : f.diagnostic = g.diagnostic := by
  rw [diagnostic_eq_iff_parts]
  cases h with
  | duplicateId kind h => exact ⟨rfl, h, rfl, rfl⟩
  | sharedNode kind h =>
    refine ⟨rfl, ?_, rfl, rfl⟩
    simpa only [details, ← String.append_assoc, String.append_left_inj] using h
  | externalDependency id h =>
    refine ⟨rfl, rfl, ?_, rfl⟩
    simp only [context, h]
  | dependencyCycle h => exact ⟨rfl, h, rfl, rfl⟩
  | noSteps module flow => exact ⟨rfl, rfl, rfl, rfl⟩
  | sharedOrder order h =>
    refine ⟨rfl, rfl, ?_, rfl⟩
    simp only [context, inFlow_inj.2 h]
  | unknownRule module rule h => exact ⟨rfl, rfl, context_unknownRule_inj.2 h, rfl⟩
  | noStates module machine => exact ⟨rfl, rfl, rfl, rfl⟩
  | severalInitial first hplace hall =>
    refine ⟨rfl, hall, ?_, rfl⟩
    simp only [context, inMachine_inj.2 hplace]
  | noInitial first h =>
    refine ⟨rfl, rfl, ?_, rfl⟩
    simp only [context, inMachine_inj.2 h]
  | unknownState id h => exact ⟨rfl, rfl, context_unknownState_inj.2 h, rfl⟩

/-- Two findings have the same report exactly if they read alike. -/
theorem diagnostic_eq_iff : f.diagnostic = g.diagnostic ↔ f.ReadsLike g :=
  ⟨readsLike_of_diagnostic_eq, diagnostic_eq_of_readsLike⟩

end Finding

end ManifestAtlas
