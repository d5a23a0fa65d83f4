import Mathlib
import ManifestAtlas.Proofs.StateAliases
import ManifestAtlas.Proofs.TextLines

/-!
# The lines of a state diagram

The text of a state diagram, seen line by line, is the machine with its state
identifiers renamed: one line for each state, one for the start, one for each
transition, one for each final state, and nothing else.  The names are `S1`,
`S2` and so on, in the order in which the machine first mentions the
identifiers, and no two identifiers share a name
(`stateDiagram_draws_machine`).

The machine may declare an identifier twice, or mention one that it does not
declare, and its texts may hold anything.
-/

namespace ManifestAtlas

open Mermaid

/-! ## The lines that are expected -/

/-- The line that declares a state under a name. -/
def declarationLine (label name : String) : String :=
  "    state \"" ++ label ++ "\" as " ++ name

/-- What follows the ends of a transition: its trigger, unless that is missing or blank. -/
def triggerSuffix : Option String → String
  | some trigger => if isBlankText trigger then "" else " : " ++ escapeLabel trigger
  | none => ""

/-- The lines for the start: an arrow to the first initial state, or else to the first state; a
placeholder for a machine without states. -/
def startLines (machine : StateMachine) (name : String → String) : List String :=
  match machine.states with
  | [] => [declarationLine "暂无状态" "Empty", arrowLine "[*]" "Empty"]
  | first :: _ =>
    [arrowLine "[*]" (name ((machine.states.find? fun s => s.initial).getD first).id)]

/-- All lines of a diagram but the header, with the given names for the identifiers. -/
def machineLines (machine : StateMachine) (name : String → String) : List String :=
  machine.states.map (fun s => declarationLine (escapeLabel s.name) (name s.id)) ++
  startLines machine name ++
  machine.transitions.map (fun t =>
    arrowLine (name t.source) (name t.target) ++ triggerSuffix t.trigger) ++
  (machine.states.filter fun s => s.final).map (fun s => arrowLine (name s.id) "[*]")

/-! ## The statements as lines -/

theorem statementLine_declare (label name : String) :
    Lines.statementLine (StateStatement.declare label name).text =
      declarationLine (escapeLabel label) name := by
  rw [← String.toList_inj]
  simp [Lines.statementLine, StateStatement.text, toString, declarationLine]

theorem statementLine_start (name : String) :
    Lines.statementLine (StateStatement.start name).text = arrowLine "[*]" name := by
  rw [← String.toList_inj]
  simp [Lines.statementLine, StateStatement.text, toString, arrowLine]

theorem statementLine_finish (name : String) :
    Lines.statementLine (StateStatement.finish name).text = arrowLine name "[*]" := by
  rw [← String.toList_inj]
  simp [Lines.statementLine, StateStatement.text, toString, arrowLine]

theorem statementLine_transition (source target : String) (trigger : Option String) :
    Lines.statementLine (StateStatement.transition source target (visible? trigger)).text =
      arrowLine source target ++ triggerSuffix trigger := by
  rw [← String.toList_inj]
  cases trigger with
  | none =>
    simp [Lines.statementLine, StateStatement.text, toString, arrowLine, triggerSuffix, visible?]
  | some trigger =>
    by_cases hblank : isBlankText trigger = true
    · simp [Lines.statementLine, StateStatement.text, toString, arrowLine, triggerSuffix, visible?,
        Option.filter, hblank]
    · simp [Lines.statementLine, StateStatement.text, toString, arrowLine, triggerSuffix, visible?,
        Option.filter, hblank]

theorem map_statementLine_start (machine : StateMachine) :
    (startStatements machine).map (fun s => Lines.statementLine s.text) =
      startLines machine machine.aliases.nameOf := by
  unfold startStatements startLines StateMachine.startState?
  cases hstates : machine.states with
  | nil =>
    have hlabel : escapeLabel "暂无状态" = "暂无状态" := by decide
    simp [statementLine_declare, statementLine_start, hlabel, emptyAlias]
  | cons first rest =>
    cases hinitial : (first :: rest).find? (·.initial) with
    | none => simp [statementLine_start]
    | some state => simp [statementLine_start]

theorem map_statementLine_diagram (machine : StateMachine) :
    machine.diagram.statements.map (fun s => Lines.statementLine s.text) =
      machineLines machine machine.aliases.nameOf := by
  simp only [StateMachine.diagram, List.map_append, List.map_map, Function.comp_def,
    statementLine_declare, statementLine_transition, statementLine_finish,
    map_statementLine_start, machineLines]

/-! ## No line feed in a line -/

theorem isOneLine_nameOf (table : AliasTable) (id : String) : IsOneLine (table.nameOf id) := by
  rw [nameOf_eq_aliasAt, aliasAt_eq, isOneLine_append]
  exact ⟨by decide, isOneLine_repr _⟩

theorem isOneLine_declarationLine {label name : String} (hlabel : IsOneLine label)
    (hname : IsOneLine name) : IsOneLine (declarationLine label name) := by
  simp only [declarationLine, isOneLine_append]
  exact ⟨⟨⟨by decide, hlabel⟩, by decide⟩, hname⟩

theorem isOneLine_triggerSuffix (trigger : Option String) : IsOneLine (triggerSuffix trigger) := by
  cases trigger with
  | none => decide
  | some trigger =>
    rw [triggerSuffix]
    split
    · decide
    · exact isOneLine_append.2 ⟨by decide, isOneLine_escapeLabel trigger⟩

section

variable {machine : StateMachine} {name : String → String}

theorem isOneLine_of_mem_startLines (hname : ∀ id, IsOneLine (name id)) {line : String}
    (h : line ∈ startLines machine name) : IsOneLine line := by
  unfold startLines at h
  cases hstates : machine.states with
  | nil =>
    have hplaceholder : line = declarationLine "暂无状态" "Empty" ∨ line = arrowLine "[*]" "Empty" := by
      simpa [hstates] using h
    rcases hplaceholder with rfl | rfl <;> decide
  | cons first rest =>
    rw [hstates] at h
    rw [List.mem_singleton.1 h]
    exact isOneLine_arrowLine (by decide) (hname _)

/-- Whatever the texts of a machine hold, each of its lines is one line. -/
theorem isOneLine_of_mem_machineLines (hname : ∀ id, IsOneLine (name id)) {line : String}
    (h : line ∈ machineLines machine name) : IsOneLine line := by
  simp only [machineLines, List.mem_append, List.mem_map] at h
  rcases h with ((⟨s, _, rfl⟩ | h) | ⟨t, _, rfl⟩) | ⟨s, _, rfl⟩
  · exact isOneLine_declarationLine (isOneLine_escapeLabel s.name) (hname s.id)
  · exact isOneLine_of_mem_startLines hname h
  · exact isOneLine_append.2
      ⟨isOneLine_arrowLine (hname t.source) (hname t.target), isOneLine_triggerSuffix t.trigger⟩
  · exact isOneLine_arrowLine (hname s.id) (by decide)

end

theorem splitLines_stateDiagram (machine : StateMachine) :
    splitLines (stateDiagram machine) =
      "stateDiagram-v2" :: machineLines machine machine.aliases.nameOf ++ [""] := by
  have hlines : (machine.diagram.statements.map StateStatement.text).map Lines.statementLine =
      machineLines machine machine.aliases.nameOf := by
    rw [List.map_map, ← map_statementLine_diagram]
    rfl
  rw [stateDiagram, StateDiagram.text, splitLines_statements (by decide), hlines]
  rw [hlines]
  exact fun line => isOneLine_of_mem_machineLines (isOneLine_nameOf machine.aliases)

/-! ## The names of the states -/

theorem nameOf_aliases (machine : StateMachine) (id : String) :
    machine.aliases.nameOf id = aliasAt ((distinct machine.mentions).idxOf id) := by
  rw [nameOf_eq_aliasAt, StateMachine.aliases, ids_ofMentions]

/-- The first mentions are numbered one after the other. -/
theorem map_nameOf_distinct_mentions (machine : StateMachine) :
    (distinct machine.mentions).map machine.aliases.nameOf =
      (List.range (distinct machine.mentions).length).map aliasAt := by
  refine List.ext_getElem (by simp) fun i hi _ => ?_
  have hlt : i < (distinct machine.mentions).length := by simpa using hi
  have hplace := (nodup_distinct machine.mentions).idxOf_getElem i hlt
  simp [nameOf_aliases, hplace]

/-- A mentioned identifier shares its name with no other one. -/
theorem nameOf_aliases_eq_iff {machine : StateMachine} {a b : String} (ha : a ∈ machine.mentions) :
    machine.aliases.nameOf a = machine.aliases.nameOf b ↔ a = b := by
  constructor
  · intro h
    rw [nameOf_aliases, nameOf_aliases] at h
    exact (List.idxOf_inj (mem_distinct.2 ha)).1 (aliasAt_injective h)
  · intro h
    rw [h]

/-! ## The drawing of a machine -/

/-- The names under which a diagram shows the identifiers that a machine mentions: `S1`, `S2` and
so on in the order of their first mention, and different ones for different identifiers. -/
structure StateMachine.IsNaming (machine : StateMachine) (name : String → String) : Prop where
  numbered : ∃ ids, FirstOccurrences machine.mentions (fun _ => True) ids ∧
    ids.map name = (List.range ids.length).map fun i => s!"S{i + 1}"
  eq_iff : ∀ a ∈ machine.mentions, ∀ b ∈ machine.mentions, name a = name b ↔ a = b

theorem isNaming_nameOf_aliases (machine : StateMachine) :
    machine.IsNaming machine.aliases.nameOf where
  numbered := by
    have hfirst := firstOccurrences_distinct_filter machine.mentions fun _ => true
    rw [List.filter_true] at hfirst
    exact ⟨_, by simpa using hfirst, map_nameOf_distinct_mentions machine⟩
  eq_iff _ ha _ _ := nameOf_aliases_eq_iff ha

/-- The text of a state diagram is its header and the lines of the machine under a naming of its
states, and no label in it holds a double quote or a line feed. -/
theorem stateDiagram_draws_machine (machine : StateMachine) :
    ∃ name : String → String, machine.IsNaming name ∧
      splitLines (stateDiagram machine) =
        "stateDiagram-v2" :: machineLines machine name ++ [""] ∧
      ∀ text, '"' ∉ (escapeLabel text).toList ∧ '\n' ∉ (escapeLabel text).toList :=
  ⟨machine.aliases.nameOf, isNaming_nameOf_aliases machine, splitLines_stateDiagram machine,
    fun text => ⟨quote_notMem_escapeLabel text, isOneLine_escapeLabel text⟩⟩

end ManifestAtlas
