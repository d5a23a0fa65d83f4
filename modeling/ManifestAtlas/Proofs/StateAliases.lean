import Mathlib
import ManifestAtlas.Diagram.StateChart
import ManifestAtlas.Proofs.Occurrences

/-!
# Aliases in state diagrams

A table of aliases grows by one identifier at a time.  After any list of
mentions it holds the first occurrences of the list (`ids_ofMentions`), and the
alias of an identifier is its place among them, so that different identifiers
have different aliases (`aliasAt_injective`).

For a machine whose state identifiers differ, and whose transitions name
declared states only, the table holds the states in their order
(`ids_aliases_of_declared`).  Its diagram then declares `S1` up to `Sn`
(`declared_diagram`), and every arrow runs between declared aliases
(`mem_declared_of_mem_arrowEnds`).
-/

namespace ManifestAtlas

open Mermaid

/-! ## The table after a list of mentions -/

private theorem ids_foldl_mention (table : AliasTable) (ids : List String) :
    (ids.foldl AliasTable.mention table).ids =
      table.ids ++ (distinct ids).filter (fun id => id ∉ table.ids) := by
  induction ids generalizing table with
  | nil => simp [distinct]
  | cons id ids ih =>
    rw [List.foldl_cons, ih, distinct]
    by_cases hid : id ∈ table.ids
    · have hsame : table.mention id = table :=
        AliasTable.mention_of_contains (by simpa [AliasTable.contains] using hid)
      have hdrop : ∀ x, decide (x ∉ table.ids) = (decide (x ∉ table.ids) && decide (x ≠ id)) := by
        intro x
        by_cases hx : x = id
        · simp [hx, hid]
        · simp [hx]
      rw [hsame, List.filter_cons_of_neg (by simpa using hid), List.filter_filter]
      exact congrArg _ (List.filter_congr fun x _ => hdrop x)
    · have hgrown : (table.mention id).ids = table.ids ++ [id] := by
        simp [AliasTable.mention, AliasTable.contains, hid]
      rw [hgrown, List.filter_cons_of_pos (by simpa using hid), List.filter_filter,
        List.append_assoc, List.singleton_append]
      refine congrArg _ (congrArg _ (List.filter_congr fun x _ => ?_))
      simp [not_or]

/-- The table of a list of mentions holds the first occurrences of the list. -/
theorem ids_ofMentions (ids : List String) : (AliasTable.ofMentions ids).ids = distinct ids := by
  rw [AliasTable.ofMentions, ids_foldl_mention]
  simp [AliasTable.empty]

/-- The alias of the identifier at a place of a table. -/
def aliasAt (i : Nat) : String :=
  s!"S{i + 1}"

theorem aliasAt_eq (i : Nat) : aliasAt i = "S" ++ (i + 1).repr :=
  rfl

theorem nameOf_eq_aliasAt (table : AliasTable) (id : String) :
    table.nameOf id = aliasAt (table.ids.idxOf id) :=
  rfl

theorem aliasAt_injective : Function.Injective aliasAt := by
  intro i j h
  rw [aliasAt_eq, aliasAt_eq] at h
  simpa using h

/-- No alias is the name of the placeholder. -/
theorem aliasAt_ne_emptyAlias (i : Nat) : aliasAt i ≠ emptyAlias := by
  intro h
  have hhead := congrArg (fun s : String => s.toList.head?) h
  simp [aliasAt_eq, emptyAlias] at hhead

/-! ## The statements of a diagram -/

/-- The alias that a statement declares. -/
def Mermaid.StateStatement.declared? : StateStatement → Option String
  | .declare _ name => some name
  | _ => none

/-- The aliases at the ends of the arrow that a statement draws. -/
def Mermaid.StateStatement.arrowEnds : StateStatement → List String
  | .declare _ _ => []
  | .start name | .finish name => [name]
  | .transition source target _ => [source, target]

/-- The aliases that a diagram declares, in order. -/
def Mermaid.StateDiagram.declared (diagram : StateDiagram) : List String :=
  diagram.statements.filterMap StateStatement.declared?

/-- The aliases that the arrows of a diagram run between. -/
def Mermaid.StateDiagram.arrowEnds (diagram : StateDiagram) : List String :=
  diagram.statements.flatMap StateStatement.arrowEnds

/-- A machine has states, their identifiers differ, and its transitions name no others. -/
structure StateMachine.IsDeclared (machine : StateMachine) : Prop where
  nonempty : machine.states ≠ []
  nodup : (machine.states.map (·.id)).Nodup
  ends : ∀ t ∈ machine.transitions, ∀ id ∈ t.ends, id ∈ machine.states.map (·.id)

section

variable {machine : StateMachine}

/-- Nothing but the declared states has an alias, and these have theirs in order. -/
theorem ids_aliases_of_declared (h : machine.IsDeclared) :
    machine.aliases.ids = machine.states.map (·.id) := by
  have hends : (machine.transitions.flatMap Transition.ends).filter
      (fun id => id ∉ machine.states.map (·.id)) = [] := by
    rw [List.filter_eq_nil_iff]
    intro id hid
    obtain ⟨t, ht, hid⟩ := List.mem_flatMap.1 hid
    simpa using h.ends t ht id hid
  have hmention : machine.aliases =
      (machine.transitions.flatMap Transition.ends).foldl AliasTable.mention
        (.ofMentions (machine.states.map (·.id))) := by
    rw [StateMachine.aliases, StateMachine.mentions, AliasTable.ofMentions, List.foldl_append]
    rfl
  rw [hmention, ids_foldl_mention, ids_ofMentions, distinct_of_nodup h.nodup, ← distinct_filter,
    hends]
  exact List.append_nil _

theorem startState?_mem {state : State} (h : machine.startState? = some state) :
    state ∈ machine.states := by
  rcases Option.or_eq_some_iff.1 h with h | ⟨_, h⟩
  · exact List.mem_of_find?_eq_some h
  · exact List.mem_of_head? h

/-- A machine with states starts in one of them. -/
theorem exists_startState? (h : machine.states ≠ []) :
    ∃ state ∈ machine.states, machine.startState? = some state := by
  cases hstart : machine.startState? with
  | some state => exact ⟨state, startState?_mem hstart, rfl⟩
  | none =>
    rw [StateMachine.startState?, Option.or_eq_none_iff] at hstart
    exact absurd (List.head?_eq_none_iff.1 hstart.2) h

private theorem filterMap_declare (states : List State) (name : State → String) :
    (states.map fun s => StateStatement.declare s.name (name s)).filterMap
      StateStatement.declared? = states.map name := by
  induction states with
  | nil => rfl
  | cons s states ih =>
    have hs : (StateStatement.declare s.name (name s)).declared? = some (name s) := rfl
    rw [List.map_cons, List.map_cons, List.filterMap_cons_some hs, ih]

private theorem filterMap_arrows {α : Type} {arrow : α → StateStatement}
    (harrow : ∀ a, (arrow a).declared? = none) (l : List α) :
    (l.map arrow).filterMap StateStatement.declared? = [] := by
  rw [List.filterMap_eq_nil_iff]
  intro s hs
  obtain ⟨a, _, rfl⟩ := List.mem_map.1 hs
  exact harrow a

/-- The declared aliases are those of the states. -/
private theorem declared_diagram_eq_map (h : machine.states ≠ []) :
    machine.diagram.declared = machine.states.map fun s => machine.aliases.nameOf s.id := by
  obtain ⟨start, _, hstart⟩ := exists_startState? h
  have hfirst : (StateStatement.start (machine.aliases.nameOf start.id)).declared? = none := rfl
  simp only [StateDiagram.declared, StateMachine.diagram, startStatements, hstart,
    List.filterMap_append, filterMap_declare]
  rw [filterMap_arrows (fun _ => rfl), filterMap_arrows (fun _ => rfl),
    List.filterMap_cons_none hfirst, List.filterMap_nil, List.append_nil, List.append_nil,
    List.append_nil]

/-- The declared states are numbered in their order. -/
theorem map_nameOf_states (h : machine.IsDeclared) :
    (machine.states.map fun s => machine.aliases.nameOf s.id) =
      (List.range machine.states.length).map aliasAt := by
  refine List.ext_getElem (by simp) fun i hi _ => ?_
  have hlt : i < (machine.states.map (·.id)).length := by simpa using hi
  have hplace : machine.aliases.ids.idxOf (machine.states.map (·.id))[i] = i := by
    rw [ids_aliases_of_declared h]
    exact h.nodup.idxOf_getElem i hlt
  simpa [nameOf_eq_aliasAt] using congrArg aliasAt hplace

/-- The diagram declares one alias for each state, in order. -/
theorem declared_diagram (h : machine.IsDeclared) :
    machine.diagram.declared = (List.range machine.states.length).map aliasAt := by
  rw [declared_diagram_eq_map h.nonempty, map_nameOf_states h]

theorem nameOf_mem_declared (h : machine.IsDeclared) {id : String}
    (hid : id ∈ machine.states.map (·.id)) :
    machine.aliases.nameOf id ∈ machine.diagram.declared := by
  have hlt := List.idxOf_lt_length_of_mem hid
  rw [declared_diagram h, nameOf_eq_aliasAt, ids_aliases_of_declared h]
  exact List.mem_map.2 ⟨_, List.mem_range.2 (by simpa using hlt), rfl⟩

/-- Every arrow runs between declared aliases. -/
theorem mem_declared_of_mem_arrowEnds (h : machine.IsDeclared) {name : String}
    (hname : name ∈ machine.diagram.arrowEnds) : name ∈ machine.diagram.declared := by
  obtain ⟨start, hmem, hstart⟩ := exists_startState? h.nonempty
  simp only [StateDiagram.arrowEnds, StateMachine.diagram, startStatements, hstart,
    List.flatMap_append, List.mem_append, List.mem_flatMap, List.mem_map] at hname
  rcases hname with ((⟨_, ⟨s, _, rfl⟩, hname⟩ | ⟨_, hs, hname⟩) | ⟨_, ⟨t, ht, rfl⟩, hname⟩) |
      ⟨_, ⟨s, hs, rfl⟩, hname⟩
  · cases hname
  · rw [List.mem_singleton.1 hs] at hname
    rw [List.mem_singleton.1 hname]
    exact nameOf_mem_declared h (List.mem_map_of_mem hmem)
  · have hends := h.ends t ht
    simp only [Transition.ends, List.forall_mem_cons] at hends
    rcases List.mem_cons.1 hname with rfl | hname
    · exact nameOf_mem_declared h hends.1
    · rw [List.mem_singleton.1 hname]
      exact nameOf_mem_declared h hends.2.1
  · rw [List.mem_singleton.1 hname]
    exact nameOf_mem_declared h (List.mem_map_of_mem (List.mem_filter.1 hs).1)

/-- A declared alias is declared once. -/
theorem count_declared (h : machine.IsDeclared) {name : String}
    (hname : name ∈ machine.diagram.declared) : machine.diagram.declared.count name = 1 := by
  have hnodup : machine.diagram.declared.Nodup := by
    rw [declared_diagram h]
    exact List.nodup_range.map aliasAt_injective
  exact List.count_eq_one_of_mem hnodup hname

theorem emptyAlias_notMem_declared (h : machine.IsDeclared) :
    emptyAlias ∉ machine.diagram.declared := by
  rw [declared_diagram h]
  intro hmem
  obtain ⟨i, _, hi⟩ := List.mem_map.1 hmem
  exact aliasAt_ne_emptyAlias i hi

end

end ManifestAtlas
