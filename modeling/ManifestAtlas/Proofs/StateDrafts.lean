import Mathlib
import ManifestAtlas.Proofs.StateLines

/-!
# Drawing a state machine statement by statement

A `StateDraft` is a state diagram that is still being drawn.  Every statement
asks the table of aliases for the names of its states, and the table grows when
it is asked for a new one: with the states first, and later with states that
only a transition mentions.

What the loop keeps is `StateDraft.Draws`: the table holds the identifiers so
far, and a name that was given is the one that the whole diagram uses.  So the
drawing ends with the diagram of the machine (`StateDraft.ofMachine_eq`), and
the identifiers that get their name at a transition are those of undeclared
states (`mintsInTransitions_iff`).

The last group looks at the lines: there is one arrow from the start
(`startArrows_stateDiagram`), and the placeholder is drawn for machines without
states only (`placeholder_mem_stateDiagram_iff`).
-/

namespace ManifestAtlas

open Mermaid

/-! ## Tables that grow -/

section

variable {table whole : AliasTable} {id : String} {ids : List String}

theorem ids_prefix_mention (table : AliasTable) (id : String) :
    table.ids <+: (table.mention id).ids := by
  rw [AliasTable.mention]
  split
  · exact List.prefix_rfl
  · exact List.prefix_append table.ids [id]

theorem ids_mention_of_notMem (h : id ∉ table.ids) :
    (table.mention id).ids = table.ids ++ [id] := by
  simp [AliasTable.mention, AliasTable.contains, h]

/-- A name that a table gives stays as the table grows. -/
theorem nameOf_eq_of_prefix (h : (table.mention id).ids <+: whole.ids) :
    table.nameOf id = whole.nameOf id := by
  obtain ⟨rest, hrest⟩ := h
  rw [nameOf_eq_aliasAt, nameOf_eq_aliasAt, ← hrest]
  by_cases hid : id ∈ table.ids
  · rw [AliasTable.mention_of_contains (by simpa [AliasTable.contains] using hid),
      List.idxOf_append_of_mem hid]
  · rw [ids_mention_of_notMem hid, List.append_assoc, List.idxOf_append_of_notMem hid,
      List.singleton_append, List.idxOf_cons_self, List.idxOf_eq_length hid, Nat.add_zero]

theorem ofMentions_append (first second : List String) :
    AliasTable.ofMentions (first ++ second) =
      second.foldl AliasTable.mention (.ofMentions first) :=
  List.foldl_append

/-- Mentioning what was mentioned before changes nothing. -/
theorem ofMentions_append_of_subset {first second : List String} (h : second ⊆ first) :
    AliasTable.ofMentions (first ++ second) = .ofMentions first := by
  induction second with
  | nil => rw [List.append_nil]
  | cons id second ih =>
    have hid : (AliasTable.ofMentions first).contains id = true := by
      simpa [AliasTable.contains, ids_ofMentions, mem_distinct] using h List.mem_cons_self
    rw [ofMentions_append, List.foldl_cons, AliasTable.mention_of_contains hid,
      ← ofMentions_append, ih (List.subset_of_cons_subset h)]

theorem contains_ofMentions_iff : (AliasTable.ofMentions ids).contains id = true ↔ id ∈ ids := by
  rw [AliasTable.contains, List.contains_iff_mem, ids_ofMentions, mem_distinct]

end

/-! ## The drawing -/

/-- A state diagram that is still being drawn: the statements so far, and the aliases that they
use. -/
structure StateDraft where
  statements : List StateStatement
  aliases : AliasTable
  deriving DecidableEq, Repr

namespace StateDraft

/-- The empty drawing. -/
def empty : StateDraft :=
  ⟨[], .empty⟩

/-- Adds a statement about a state. -/
def emit (draft : StateDraft) (id : String) (statement : String → StateStatement) : StateDraft :=
  ⟨draft.statements ++ [statement (draft.aliases.resolve id).1], (draft.aliases.resolve id).2⟩

/-- Declares a state. -/
def declare (draft : StateDraft) (state : State) : StateDraft :=
  draft.emit state.id (.declare state.name)

/-- Adds the arrow from the start, or the placeholder and the arrow to it. -/
def start (machine : StateMachine) (draft : StateDraft) : StateDraft :=
  match machine.startState? with
  | some state => draft.emit state.id .start
  | none =>
    { draft with
      statements := draft.statements ++ [.declare "暂无状态" emptyAlias, .start emptyAlias] }

/-- Adds the arrow of a transition: first its source is asked for, then its target. -/
def connect (draft : StateDraft) (t : Transition) : StateDraft :=
  let source := draft.aliases.resolve t.source
  let target := source.2.resolve t.target
  ⟨draft.statements ++ [.transition source.1 target.1 (visible? t.trigger)], target.2⟩

/-- Adds the arrow from a state to the end. -/
def finish (draft : StateDraft) (state : State) : StateDraft :=
  draft.emit state.id .finish

/-- The drawing of the states and the start. -/
def beforeTransitions (machine : StateMachine) : StateDraft :=
  (machine.states.foldl declare empty).start machine

/-- The drawing up to the last transition. -/
def afterTransitions (machine : StateMachine) : StateDraft :=
  machine.transitions.foldl connect (beforeTransitions machine)

/-- The whole drawing. -/
def ofMachine (machine : StateMachine) : StateDraft :=
  (machine.states.filter (·.final)).foldl finish (afterTransitions machine)

/-- What the drawing keeps: its table holds the identifiers that were asked for, and as long as the
table is the beginning of a whole one, its statements are those with the names of the whole
table. -/
structure Draws (whole : AliasTable) (draft : StateDraft) (ids : List String)
    (statements : List StateStatement) : Prop where
  aliases : draft.aliases = .ofMentions ids
  statements : draft.aliases.ids <+: whole.ids → draft.statements = statements

section

variable {whole : AliasTable} {draft : StateDraft} {ids : List String}
  {statements : List StateStatement}

theorem draws_empty (whole : AliasTable) : empty.Draws whole [] [] :=
  ⟨rfl, fun _ => rfl⟩

theorem Draws.emit (h : draft.Draws whole ids statements) (id : String)
    (statement : String → StateStatement) :
    (draft.emit id statement).Draws whole (ids ++ [id])
      (statements ++ [statement (whole.nameOf id)]) where
  aliases := by
    rw [ofMentions_append, ← h.aliases]
    rfl
  statements hprefix := by
    have hname : draft.aliases.nameOf id = whole.nameOf id := nameOf_eq_of_prefix hprefix
    rw [← hname, ← h.statements ((ids_prefix_mention _ id).trans hprefix)]
    rfl

theorem Draws.connect (h : draft.Draws whole ids statements) (t : Transition) :
    (draft.connect t).Draws whole (ids ++ t.ends)
      (statements ++ [.transition (whole.nameOf t.source) (whole.nameOf t.target)
        (visible? t.trigger)]) where
  aliases := by
    rw [ofMentions_append, ← h.aliases]
    rfl
  statements hprefix := by
    have htarget : (draft.aliases.mention t.source).nameOf t.target = whole.nameOf t.target :=
      nameOf_eq_of_prefix hprefix
    have hmiddle : (draft.aliases.mention t.source).ids <+: whole.ids :=
      (ids_prefix_mention _ t.target).trans hprefix
    have hsource : draft.aliases.nameOf t.source = whole.nameOf t.source :=
      nameOf_eq_of_prefix hmiddle
    rw [← htarget, ← hsource, ← h.statements ((ids_prefix_mention _ t.source).trans hmiddle)]
    rfl

/-- A loop that asks for some identifiers and adds one statement in each round. -/
theorem Draws.foldl {α : Type} {step : StateDraft → α → StateDraft} (asked : α → List String)
    (statement : α → StateStatement)
    (hstep : ∀ {draft ids statements}, Draws whole draft ids statements → ∀ a,
      (step draft a).Draws whole (ids ++ asked a) (statements ++ [statement a]))
    (h : draft.Draws whole ids statements) (items : List α) :
    (items.foldl step draft).Draws whole (ids ++ items.flatMap asked)
      (statements ++ items.map statement) := by
  induction items generalizing draft ids statements with
  | nil => simpa using h
  | cons a items ih => simpa using ih (hstep h a)

/-- A loop that adds a statement about each of some states. -/
theorem Draws.foldl_emit (h : draft.Draws whole ids statements)
    (statement : State → String → StateStatement) (states : List State) :
    (states.foldl (fun draft s => draft.emit s.id (statement s)) draft).Draws whole
      (ids ++ states.map (·.id))
      (statements ++ states.map fun s => statement s (whole.nameOf s.id)) := by
  rw [List.map_eq_flatMap]
  exact h.foldl (fun s => [s.id]) (fun s => statement s (whole.nameOf s.id))
    (fun h s => h.emit s.id (statement s)) states

end

section

variable (machine : StateMachine)

/-- The start adds no alias: the state in which the machine starts has one. -/
theorem draws_beforeTransitions :
    (beforeTransitions machine).Draws machine.aliases (machine.states.map (·.id))
      (machine.states.map (fun s => .declare s.name (machine.aliases.nameOf s.id)) ++
        startStatements machine) := by
  have hdeclared : (machine.states.foldl declare empty).Draws machine.aliases
      (machine.states.map (·.id))
      (machine.states.map fun s => .declare s.name (machine.aliases.nameOf s.id)) :=
    (draws_empty machine.aliases).foldl_emit (fun s => .declare s.name) machine.states
  rw [beforeTransitions, start, startStatements]
  cases hstart : machine.startState? with
  | none => exact ⟨hdeclared.aliases, fun hprefix => by rw [hdeclared.statements hprefix]⟩
  | some state =>
    have hknown : [state.id] ⊆ machine.states.map (·.id) := by
      simpa using ⟨state, startState?_mem hstart, rfl⟩
    obtain ⟨haliases, hstatements⟩ := hdeclared.emit state.id .start
    rw [ofMentions_append_of_subset hknown] at haliases
    exact ⟨haliases, hstatements⟩

theorem draws_afterTransitions :
    (afterTransitions machine).Draws machine.aliases machine.mentions
      (machine.states.map (fun s => .declare s.name (machine.aliases.nameOf s.id)) ++
        startStatements machine ++
        machine.transitions.map fun t => .transition (machine.aliases.nameOf t.source)
          (machine.aliases.nameOf t.target) (visible? t.trigger)) :=
  (draws_beforeTransitions machine).foldl _ _ (fun h t => h.connect t) machine.transitions

theorem aliases_beforeTransitions :
    (beforeTransitions machine).aliases = .ofMentions (machine.states.map (·.id)) :=
  (draws_beforeTransitions machine).aliases

theorem aliases_afterTransitions : (afterTransitions machine).aliases = machine.aliases :=
  (draws_afterTransitions machine).aliases

/-- Statement by statement, the drawing ends with the diagram of the machine. -/
theorem ofMachine_eq : ofMachine machine = ⟨machine.diagram.statements, machine.aliases⟩ := by
  have hloop : (ofMachine machine).Draws machine.aliases
      (machine.mentions ++ (machine.states.filter (·.final)).map (·.id))
      machine.diagram.statements :=
    (draws_afterTransitions machine).foldl_emit (fun _ => .finish)
      (machine.states.filter (·.final))
  have hknown : (machine.states.filter (·.final)).map (·.id) ⊆ machine.mentions := by
    intro id hid
    obtain ⟨s, hs, rfl⟩ := List.mem_map.1 hid
    exact List.mem_append_left _ (List.mem_map_of_mem (List.mem_of_mem_filter hs))
  obtain ⟨haliases, hstatements⟩ := hloop
  rw [ofMentions_append_of_subset hknown] at haliases
  have hwhole : (ofMachine machine).aliases = machine.aliases := haliases
  have hdrawn : (ofMachine machine).statements = machine.diagram.statements :=
    hstatements (haliases ▸ List.prefix_rfl)
  rw [← hdrawn, ← hwhole]

end

end StateDraft

/-! ## Names that are given at a transition -/

/-- An identifier gets its alias while the transitions of a machine are drawn. -/
def StateMachine.MintsInTransitions (machine : StateMachine) (id : String) : Prop :=
  (StateDraft.beforeTransitions machine).aliases.contains id = false ∧
    (StateDraft.afterTransitions machine).aliases.contains id = true

theorem mintsInTransitions_iff {machine : StateMachine} {id : String} :
    machine.MintsInTransitions id ↔
      id ∉ machine.states.map (·.id) ∧ ∃ t ∈ machine.transitions, id ∈ t.ends := by
  have hbefore : (StateDraft.beforeTransitions machine).aliases.contains id = false ↔
      id ∉ machine.states.map (·.id) := by
    rw [StateDraft.aliases_beforeTransitions, ← Bool.not_eq_true, contains_ofMentions_iff]
  have hafter : (StateDraft.afterTransitions machine).aliases.contains id = true ↔
      id ∈ machine.states.map (·.id) ∨ ∃ t ∈ machine.transitions, id ∈ t.ends := by
    rw [StateDraft.aliases_afterTransitions, StateMachine.aliases, contains_ofMentions_iff,
      StateMachine.mentions, List.mem_append, List.mem_flatMap]
  rw [StateMachine.MintsInTransitions, hbefore, hafter]
  exact and_congr_right fun hnew => or_iff_right hnew

/-! ## The start and the placeholder in the text -/

/-- Whether a line of a state diagram is an arrow from the start. -/
def isStartArrow (line : String) : Bool :=
  "    [*] --> ".toList.isPrefixOf line.toList

/-- The arrows from the start in the text of a state diagram. -/
def startArrows (text : String) : List String :=
  (splitLines text).filter isStartArrow

/-- The line of the placeholder for the states of a machine. -/
def placeholderLine : String :=
  declarationLine "暂无状态" "Empty"

section

variable (table : AliasTable) (id label name target suffix : String)

theorem isStartArrow_declarationLine : isStartArrow (declarationLine label name) = false := by
  simp [isStartArrow, declarationLine, List.isPrefixOf]

theorem isStartArrow_start : isStartArrow (arrowLine "[*]" target) = true := by
  simp [isStartArrow, arrowLine]

theorem isStartArrow_arrowLine :
    isStartArrow (arrowLine (table.nameOf id) target ++ suffix) = false := by
  simp [isStartArrow, arrowLine, nameOf_eq_aliasAt, aliasAt_eq, List.isPrefixOf]

/-- A declared state is no placeholder: its alias ends with a digit. -/
theorem declarationLine_ne_placeholderLine :
    declarationLine label (table.nameOf id) ≠ placeholderLine := by
  intro h
  have hline : (declarationLine label (table.nameOf id)).toList =
      ("    state \"" ++ label ++ "\" as S").toList ++
        Nat.toDigits 10 (table.ids.idxOf id + 1) := by
    simp [declarationLine, nameOf_eq_aliasAt, aliasAt_eq]
  have hlast : (Nat.toDigits 10 (table.ids.idxOf id + 1)).getLast? = some 'y' := by
    rw [← List.getLast?_append_of_ne_nil _ Nat.toDigits_ne_nil, ← hline, h]
    decide
  have hdigit :=
    Nat.isDigit_of_mem_toDigits (by decide) (by decide) (List.mem_of_getLast? hlast)
  exact absurd hdigit (by decide)

theorem arrowLine_ne_placeholderLine :
    arrowLine (table.nameOf id) target ++ suffix ≠ placeholderLine := by
  rw [Ne, ← String.toList_inj]
  simp [arrowLine, declarationLine, placeholderLine, nameOf_eq_aliasAt, aliasAt_eq]

theorem start_ne_placeholderLine : arrowLine "[*]" target ≠ placeholderLine := by
  rw [Ne, ← String.toList_inj]
  simp [arrowLine, declarationLine, placeholderLine]

end

section

variable {machine : StateMachine}

theorem startLines_of_startState? {state : State} (h : machine.startState? = some state) :
    startLines machine machine.aliases.nameOf =
      [arrowLine "[*]" (machine.aliases.nameOf state.id)] := by
  rw [← map_statementLine_start, startStatements, h, List.map_singleton, statementLine_start]

/-- A machine with states starts with one arrow. -/
theorem startArrows_stateDiagram {state : State} (h : machine.startState? = some state) :
    startArrows (stateDiagram machine) =
      [arrowLine "[*]" (machine.aliases.nameOf state.id)] := by
  have hdeclared : (machine.states.map fun s =>
      declarationLine (escapeLabel s.name) (machine.aliases.nameOf s.id)).filter isStartArrow =
        [] := by
    simp [isStartArrow_declarationLine]
  have hconnected : (machine.transitions.map fun t =>
      arrowLine (machine.aliases.nameOf t.source) (machine.aliases.nameOf t.target) ++
        triggerSuffix t.trigger).filter isStartArrow = [] := by
    simp [isStartArrow_arrowLine]
  have hfinished : ((machine.states.filter fun s => s.final).map fun s =>
      arrowLine (machine.aliases.nameOf s.id) "[*]").filter isStartArrow = [] := by
    rw [List.filter_eq_nil_iff]
    intro line hline
    obtain ⟨s, _, rfl⟩ := List.mem_map.1 hline
    simpa using isStartArrow_arrowLine machine.aliases s.id "[*]" ""
  have hends : isStartArrow "stateDiagram-v2" = false ∧ isStartArrow "" = false := by decide
  rw [startArrows, splitLines_stateDiagram, machineLines, startLines_of_startState? h]
  simp [hdeclared, hconnected, hfinished, hends, isStartArrow_start]

/-- The placeholder is drawn for machines without states only. -/
theorem placeholder_mem_stateDiagram_iff :
    placeholderLine ∈ splitLines (stateDiagram machine) ↔ machine.states = [] := by
  have hends : placeholderLine ≠ "stateDiagram-v2" ∧ placeholderLine ≠ "" := by decide
  rw [splitLines_stateDiagram]
  constructor
  · intro h
    by_contra hne
    obtain ⟨state, _, hstart⟩ := exists_startState? hne
    rw [machineLines, startLines_of_startState? hstart] at h
    simp only [List.mem_append, List.mem_cons, List.mem_map, List.not_mem_nil, or_false] at h
    rcases h with (h | ((⟨s, _, h⟩ | h) | ⟨t, _, h⟩) | ⟨s, _, h⟩) | h
    · exact hends.1 h
    · exact declarationLine_ne_placeholderLine _ _ _ h
    · exact start_ne_placeholderLine _ h.symm
    · exact arrowLine_ne_placeholderLine _ _ _ _ h
    · exact arrowLine_ne_placeholderLine _ _ "[*]" "" (by simpa using h)
    · exact hends.2 h
  · intro h
    simp [machineLines, startLines, h, placeholderLine]

end

end ManifestAtlas
