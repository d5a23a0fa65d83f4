import ManifestAtlas.Manifest.Project
import ManifestAtlas.Mermaid.AliasTable
import ManifestAtlas.Mermaid.StateDiagram
import ManifestAtlas.Text.Blank

/-!
# The state diagram of a state machine

States are declared in order, then come the arrow from the start, the
transitions, and the arrows of the final states to the end.  A transition may
name a state that is not declared; it gets an alias all the same, so that the
diagram is visibly wrong but can be drawn.
-/

namespace ManifestAtlas

open Mermaid

/-- The ends of a transition. -/
def Transition.ends (t : Transition) : List String :=
  [t.source, t.target]

/-- Every identifier of a state that a machine mentions: the declared ones first, then the ends
of the transitions. -/
def StateMachine.mentions (machine : StateMachine) : List String :=
  machine.states.map (·.id) ++ machine.transitions.flatMap Transition.ends

/-- The aliases of the states of a machine. -/
def StateMachine.aliases (machine : StateMachine) : AliasTable :=
  .ofMentions machine.mentions

/-- The state that a machine starts in: the first one flagged as initial, or else the first
one. -/
def StateMachine.startState? (machine : StateMachine) : Option State :=
  (machine.states.find? (·.initial)).or machine.states.head?

/-- The alias of the state that stands in for the states of a machine without states. -/
def emptyAlias : String := "Empty"

/-- The statements for the start. -/
def startStatements (machine : StateMachine) : List StateStatement :=
  match machine.startState? with
  | some state => [.start (machine.aliases.nameOf state.id)]
  | none => [.declare "暂无状态" emptyAlias, .start emptyAlias]

/-- The diagram of a state machine. -/
def StateMachine.diagram (machine : StateMachine) : StateDiagram where
  statements :=
    let aliases := machine.aliases
    machine.states.map (fun s => .declare s.name (aliases.nameOf s.id)) ++
    startStatements machine ++
    machine.transitions.map (fun t =>
      .transition (aliases.nameOf t.source) (aliases.nameOf t.target) (visible? t.trigger)) ++
    (machine.states.filter (·.final)).map (fun s => .finish (aliases.nameOf s.id))

/-- The text of the state diagram of a machine. -/
def stateDiagram (machine : StateMachine) : String :=
  machine.diagram.text

/-- The identifiers without an alias that the ends of transitions mention, transition by
transition; the ends of one transition are looked at together. -/
def unknownEnds (table : AliasTable) : List Transition → List String
  | [] => []
  | t :: ts =>
    t.ends.filter (fun id => !table.contains id) ++
      unknownEnds (t.ends.foldl AliasTable.mention table) ts

/-- The identifiers of undeclared states that a machine mentions. -/
def StateMachine.unknownStates (machine : StateMachine) : List String :=
  unknownEnds (.ofMentions (machine.states.map (·.id))) machine.transitions

end ManifestAtlas
