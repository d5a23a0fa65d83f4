import ManifestAtlas.Manifest.Project
import ManifestAtlas.Report.Diagnostic
import ManifestAtlas.Text.LowerCase

/-!
# Selecting part of a manifest

A module, flow or state machine is selected by its identifier.  An unknown
identifier is reported together with the ones that look like it: those that
contain it or are contained in it, whatever the case of letters.
-/

namespace ManifestAtlas

/-- A selection that failed, with the identifiers to suggest instead. -/
inductive SelectError where
  | unknownModule (id : String) (suggestions : List String)
  | unknownFlow (module flow : String) (suggestions : List String)
  | unknownStateMachine (module machine : String) (suggestions : List String)
  deriving DecidableEq, Repr

/-- The greatest number of suggestions. -/
def maxSuggestions : Nat := 5

/-- Whether a list occurs in another one without gaps. -/
def occursIn (needle : List Char) : List Char → Bool
  | [] => needle.isEmpty
  | c :: rest => needle.isPrefixOf (c :: rest) || occursIn needle rest

/-- Whether one identifier contains the other, whatever the case of letters. -/
def resembles (wanted id : String) : Bool :=
  let wanted := lowerCase wanted.toList
  let id := lowerCase id.toList
  !wanted.isEmpty && (occursIn wanted id || occursIn id wanted)

/-- The list with repeats right after each other removed. -/
def withoutRuns : List String → List String
  | [] => []
  | [x] => [x]
  | x :: y :: rest => if x = y then withoutRuns (y :: rest) else x :: withoutRuns (y :: rest)

/-- The identifiers to suggest in place of an unknown one: those that resemble it, or all of
them if there are only a few. -/
def suggestionsFor (ids : List String) (wanted : String) : List String :=
  let similar := ids.filter (resembles wanted)
  let offered :=
    if similar.isEmpty then if ids.length ≤ maxSuggestions then ids else [] else similar
  (withoutRuns offered).take maxSuggestions

/-- Selects a module. -/
def selectModule (manifest : Manifest) (id : String) : Except SelectError Module :=
  match manifest.module? id with
  | some module => .ok module
  | none => .error (.unknownModule id (suggestionsFor (manifest.modules.map (·.id)) id))

/-- Selects a flow, and returns it with its module. -/
def selectFlow (manifest : Manifest) (moduleId flowId : String) :
    Except SelectError (Module × Flow) := do
  let module ← selectModule manifest moduleId
  match module.flow? flowId with
  | some flow => .ok (module, flow)
  | none =>
    .error (.unknownFlow moduleId flowId (suggestionsFor (module.flows.map (·.id)) flowId))

/-- Selects a state machine, and returns it with its module. -/
def selectStateMachine (manifest : Manifest) (moduleId machineId : String) :
    Except SelectError (Module × StateMachine) := do
  let module ← selectModule manifest moduleId
  match module.stateMachine? machineId with
  | some machine => .ok (module, machine)
  | none =>
    .error (.unknownStateMachine moduleId machineId
      (suggestionsFor (module.stateMachines.map (·.id)) machineId))

namespace SelectError

/-- What could not be found. -/
def message : SelectError → String
  | .unknownModule id _ => s!"module `{id}` not found"
  | .unknownFlow module flow _ => s!"flow `{flow}` not found in module `{module}`"
  | .unknownStateMachine module machine _ =>
    s!"state machine `{machine}` not found in module `{module}`"

/-- The identifiers to suggest. -/
def suggestions : SelectError → List String
  | .unknownModule _ all | .unknownFlow _ _ all | .unknownStateMachine _ _ all => all

/-- The code of the error. -/
def code : SelectError → String
  | .unknownModule .. => "logicmap::select::module"
  | .unknownFlow .. => "logicmap::select::flow"
  | .unknownStateMachine .. => "logicmap::select::state_machine"

/-- The report of the error. -/
def diagnostic (e : SelectError) : Diagnostic :=
  let problem := Diagnostic.plain .error e.message
  let problem :=
    if e.suggestions.isEmpty then problem
    else problem.withContext ("did you mean: " ++ ", ".intercalate e.suggestions ++ "?")
  problem.withSuggestion "help: Run `logicmap list` to see available ids"

end SelectError

end ManifestAtlas
