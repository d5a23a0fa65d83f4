import Mathlib
import ManifestAtlas.Proofs.StateDrafts

/-!
# Calls on a table of aliases

A table of aliases answers two kinds of calls: one asks for the alias of an
identifier, and gives it one if it has none, and the other asks whether it has
one.  `runCalls` is any sequence of them on a new table.

A single call is settled by the aliases that are stored so far
(`answer_resolve_stored`): an identifier keeps its alias, and a new one gets
the next number.  What a run keeps is that its table is that of the identifiers
asked for so far (`runCalls_snd`), so that their first occurrences are
numbered without gaps (`stored_runCalls`).

Main statement: `calls_are_answered_by_first_use`.
-/

namespace ManifestAtlas

open Mermaid

namespace Mermaid.AliasTable

/-! ## Single calls -/

/-- A call on a table of aliases. -/
inductive Call where
  | resolve (id : String)
  | contains (id : String)
  deriving DecidableEq, Repr

/-- What a call is answered. -/
inductive Answer where
  | alias (name : String)
  | known (yes : Bool)
  deriving DecidableEq, Repr

/-- The identifier that a call asks the alias of. -/
def Call.asked? : Call → Option String
  | .resolve id => some id
  | .contains _ => none

/-- The alias that an answer gives. -/
def Answer.alias? : Answer → Option String
  | .alias name => some name
  | .known _ => none

/-- The answer to a call, and the table behind it. -/
def answer (table : AliasTable) : Call → Answer × AliasTable
  | .resolve id => (.alias (table.resolve id).1, (table.resolve id).2)
  | .contains id => (.known (table.contains id), table)

/-- The answers to calls one after the other, and the table behind them. -/
def runCalls (table : AliasTable) : List Call → List Answer × AliasTable
  | [] => ([], table)
  | call :: calls =>
    let (first, next) := table.answer call
    let (answers, last) := next.runCalls calls
    (first :: answers, last)

/-- The identifiers of a table, each with its alias. -/
def stored (table : AliasTable) : List (String × String) :=
  table.ids.map fun id => (id, table.nameOf id)

/-- The identifiers that calls ask an alias of, in order. -/
def askedIds (calls : List Call) : List String :=
  calls.filterMap Call.asked?

section

variable {table : AliasTable} {id : String} {calls : List Call}

/-- An identifier is answered with its stored alias.  Without one it gets the next number, which is
stored with it. -/
theorem answer_resolve_stored (table : AliasTable) (id : String) :
    (table.answer (.resolve id)).1 =
        .alias ((table.stored.lookup id).getD (aliasAt table.stored.length)) ∧
      (table.answer (.resolve id)).2.stored =
        match table.stored.lookup id with
        | some _ => table.stored
        | none => table.stored ++ [(id, aliasAt table.stored.length)] := by
  by_cases h : id ∈ table.ids
  · have hlookup : table.stored.lookup id = some (table.nameOf id) := List.lookup_graph _ h
    have hsame : table.mention id = table :=
      mention_of_contains (by simpa [contains] using h)
    rw [hlookup]
    exact ⟨rfl, congrArg stored hsame⟩
  · have hlookup : table.stored.lookup id = none := by
      rw [List.lookup_eq_none_iff]
      rintro _ hmem
      obtain ⟨other, hother, rfl⟩ := List.mem_map.1 hmem
      simpa using fun heq : id = other => h (heq ▸ hother)
    have hnext : table.nameOf id = aliasAt table.stored.length := by
      rw [nameOf_eq_aliasAt, List.idxOf_eq_length h, stored, List.length_map]
    -- Aliases go by position, and the new identifier comes behind the others.
    have hkept : ∀ other ∈ table.ids, (table.mention id).nameOf other = table.nameOf other := by
      intro other hother
      rw [nameOf_eq_aliasAt, ids_mention_of_notMem h, List.idxOf_append_of_mem hother]
      rfl
    have hnew : (table.mention id).nameOf id = aliasAt table.stored.length := by
      rw [← nameOf_eq_of_prefix (List.prefix_refl _), hnext]
    have hgrown : (table.mention id).stored =
        table.stored ++ [(id, aliasAt table.stored.length)] := by
      rw [stored, ids_mention_of_notMem h, List.map_append, List.map_singleton, hnew]
      exact congrArg (· ++ _) (List.map_congr_left fun other hother => by rw [hkept other hother])
    rw [hlookup]
    exact ⟨congrArg Answer.alias hnext, hgrown⟩

/-! ## Runs -/

theorem ids_prefix_foldl (table : AliasTable) (ids : List String) :
    table.ids <+: (ids.foldl mention table).ids := by
  induction ids generalizing table with
  | nil => exact List.prefix_rfl
  | cons id ids ih => exact (ids_prefix_mention table id).trans (ih (table.mention id))

theorem runCalls_cons (table : AliasTable) (call : Call) (calls : List Call) :
    table.runCalls (call :: calls) =
      ((table.answer call).1 :: ((table.answer call).2.runCalls calls).1,
        ((table.answer call).2.runCalls calls).2) := rfl

/-- The table behind a run is that of the identifiers asked for. -/
theorem runCalls_snd (table : AliasTable) (calls : List Call) :
    (table.runCalls calls).2 = (askedIds calls).foldl mention table := by
  induction calls generalizing table with
  | nil => rfl
  | cons call calls ih =>
    rw [runCalls_cons, ih]
    cases call <;> rfl

theorem length_runCalls (table : AliasTable) (calls : List Call) :
    (table.runCalls calls).1.length = calls.length := by
  induction calls generalizing table with
  | nil => rfl
  | cons call calls ih => rw [runCalls_cons, List.length_cons, ih, List.length_cons]

/-- A call is answered by the table behind the calls before it. -/
theorem getElem?_runCalls {i : Nat} {call : Call} (h : calls[i]? = some call) :
    (table.runCalls calls).1[i]? = some ((table.runCalls (calls.take i)).2.answer call).1 := by
  induction calls generalizing table i with
  | nil => simp at h
  | cons first calls ih =>
    cases i with
    | zero =>
      obtain rfl : first = call := by simpa using h
      rfl
    | succ i =>
      rw [List.getElem?_cons_succ] at h
      rw [List.take_succ_cons, runCalls_cons, runCalls_cons, List.getElem?_cons_succ, ih h]

/-- The table behind calls on a new table. -/
theorem runCalls_empty_snd (calls : List Call) :
    (empty.runCalls calls).2 = .ofMentions (askedIds calls) :=
  runCalls_snd empty calls

theorem askedIds_take_succ {i : Nat} {call : Call} (h : calls[i]? = some call) :
    askedIds (calls.take (i + 1)) = askedIds (calls.take i) ++ call.asked?.toList := by
  rw [List.take_add_one, h, askedIds, List.filterMap_append]
  cases call <;> rfl

theorem mem_askedIds : id ∈ askedIds calls ↔ .resolve id ∈ calls := by
  rw [askedIds, List.mem_filterMap]
  constructor
  · rintro ⟨call, hcall, hasked⟩
    cases call <;> cases hasked
    exact hcall
  · exact fun h => ⟨_, h, rfl⟩

/-- Asked for an alias, a new table answers with the place of the identifier among the first
occurrences so far. -/
theorem answer_of_resolve {i : Nat} (h : calls[i]? = some (.resolve id)) :
    (empty.runCalls calls).1[i]? =
      some (.alias (aliasAt ((distinct (askedIds (calls.take (i + 1)))).idxOf id))) := by
  have hname : (ofMentions (askedIds (calls.take i))).nameOf id =
      (ofMentions (askedIds (calls.take (i + 1)))).nameOf id := by
    rw [askedIds_take_succ h, ofMentions_append]
    exact nameOf_eq_of_prefix (List.prefix_refl _)
  rw [getElem?_runCalls h, runCalls_empty_snd, ← ids_ofMentions, ← nameOf_eq_aliasAt, ← hname]
  rfl

theorem mem_distinct_take {i : Nat} (h : calls[i]? = some (.resolve id)) :
    id ∈ distinct (askedIds (calls.take (i + 1))) := by
  rw [mem_distinct, askedIds_take_succ h]
  exact List.mem_append_right _ (List.mem_singleton_self id)

/-- The place of an identifier among the first occurrences stays as more of them come. -/
theorem idxOf_distinct_take {i : Nat} (h : calls[i]? = some (.resolve id)) :
    (distinct (askedIds (calls.take (i + 1)))).idxOf id = (distinct (askedIds calls)).idxOf id := by
  have hsplit : askedIds calls =
      askedIds (calls.take (i + 1)) ++ askedIds (calls.drop (i + 1)) := by
    rw [askedIds, askedIds, askedIds, ← List.filterMap_append, List.take_append_drop]
  obtain ⟨rest, hrest⟩ := ids_prefix_foldl (ofMentions (askedIds (calls.take (i + 1))))
    (askedIds (calls.drop (i + 1)))
  rw [← ofMentions_append, ← hsplit, ids_ofMentions, ids_ofMentions] at hrest
  rw [← hrest, List.idxOf_append_of_mem (mem_distinct_take h)]

/-- Asked whether an identifier has an alias, a table answers whether it was asked for one. -/
theorem answer_of_contains {i : Nat} (h : calls[i]? = some (.contains id)) :
    (empty.runCalls calls).1[i]? = some (.known (decide (.resolve id ∈ calls.take i))) := by
  rw [getElem?_runCalls h, runCalls_empty_snd]
  have hknown : (ofMentions (askedIds (calls.take i))).contains id =
      decide (.resolve id ∈ calls.take i) := by
    rw [Bool.eq_iff_iff, contains_ofMentions_iff, mem_askedIds, decide_eq_true_iff]
  exact congrArg (fun yes => some (Answer.known yes)) hknown

/-- All aliases that a run answers are those of its last table. -/
theorem aliases_runCalls (table : AliasTable) (calls : List Call) :
    (table.runCalls calls).1.filterMap Answer.alias? =
      (askedIds calls).map ((askedIds calls).foldl mention table).nameOf := by
  induction calls generalizing table with
  | nil => rfl
  | cons call calls ih =>
    rw [runCalls_cons]
    cases call with
    | contains id => exact ih table
    | resolve id =>
      have hname : table.nameOf id =
          ((askedIds calls).foldl mention (table.mention id)).nameOf id :=
        nameOf_eq_of_prefix (ids_prefix_foldl _ _)
      exact congrArg₂ List.cons hname (ih (table.mention id))

/-- The identifiers of a list without repeats are numbered without gaps. -/
theorem map_aliasAt_idxOf {ids : List String} (h : ids.Nodup) :
    (ids.map fun id => aliasAt (ids.idxOf id)) = (List.range ids.length).map aliasAt := by
  refine List.ext_getElem (by simp) fun i hi _ => ?_
  have hlt : i < ids.length := by simpa using hi
  simp [h.idxOf_getElem i hlt]

/-- The aliases that a run on a new table answers are numbered without gaps. -/
theorem distinct_aliases_runCalls (calls : List Call) :
    distinct ((empty.runCalls calls).1.filterMap Answer.alias?) =
      (List.range (distinct (askedIds calls)).length).map aliasAt := by
  have hnames : ((askedIds calls).foldl mention empty).nameOf =
      fun id => aliasAt ((distinct (askedIds calls)).idxOf id) := by
    rw [← ids_ofMentions]
    rfl
  have hinj : Set.InjOn (fun id => aliasAt ((distinct (askedIds calls)).idxOf id))
      {id | id ∈ askedIds calls} := fun a ha b _ hab =>
    (List.idxOf_inj (mem_distinct.2 ha)).1 (aliasAt_injective hab)
  rw [aliases_runCalls, hnames, distinct_map hinj, map_aliasAt_idxOf (nodup_distinct _)]

/-- The table behind a run stores the identifiers asked for, in the order of their first use, and
the aliases `S1` up to `Sn` for them. -/
theorem stored_runCalls (calls : List Call) :
    (empty.runCalls calls).2.stored.map Prod.fst = distinct (askedIds calls) ∧
      (empty.runCalls calls).2.stored.map Prod.snd =
        (List.range (distinct (askedIds calls)).length).map aliasAt := by
  rw [runCalls_empty_snd, stored, List.map_map, List.map_map, ids_ofMentions]
  refine ⟨List.map_id _, ?_⟩
  rw [← map_aliasAt_idxOf (nodup_distinct _), ← ids_ofMentions]
  rfl

/-- Questions whether identifiers have an alias leave the table as it is. -/
theorem askedIds_filter (calls : List Call) :
    askedIds (calls.filter fun call => call.asked?.isSome) = askedIds calls := by
  induction calls with
  | nil => rfl
  | cons call calls ih =>
    cases call with
    | resolve id => exact congrArg (id :: ·) ih
    | contains id => exact ih

/-- Calls on a new table are answered, and leave a table, by the first use of identifiers. -/
structure AnswersByFirstUse (calls : List Call) (answers : List Answer) (table : AliasTable) :
    Prop where
  length : answers.length = calls.length
  /-- An identifier that is asked for is named after its place among the different ones so far. -/
  named : ∀ (i : Nat) (id : String), calls[i]? = some (Call.resolve id) →
    ∃ k, (distinct (askedIds (calls.take (i + 1))))[k]? = some id ∧
      answers[i]? = some (.alias s!"S{k + 1}")
  /-- Two answers name the same alias just if they are about the same identifier. -/
  apart : ∀ (i j : Nat) (a b : String), calls[i]? = some (Call.resolve a) →
    calls[j]? = some (Call.resolve b) → (answers[i]? = answers[j]? ↔ a = b)
  /-- The aliases in use are numbered without gaps. -/
  dense : distinct (answers.filterMap Answer.alias?) =
    (List.range (distinct (askedIds calls)).length).map fun k => s!"S{k + 1}"
  ids : table.stored.map Prod.fst = distinct (askedIds calls)
  aliases : table.stored.map Prod.snd =
    (List.range (distinct (askedIds calls)).length).map fun k => s!"S{k + 1}"
  /-- An identifier has an alias just if it was asked for before. -/
  known : ∀ (i : Nat) (id : String), calls[i]? = some (Call.contains id) →
    answers[i]? = some (.known (decide (Call.resolve id ∈ calls.take i)))
  quiet : (empty.runCalls (calls.filter fun call => call.asked?.isSome)).2 = table
  /-- An identifier that is asked for next gets its stored alias, or the next number. -/
  next : ∀ id, (table.answer (.resolve id)).1 =
      .alias ((table.stored.lookup id).getD s!"S{table.stored.length + 1}") ∧
    (table.answer (.resolve id)).2.stored =
      match table.stored.lookup id with
      | some _ => table.stored
      | none => table.stored ++ [(id, s!"S{table.stored.length + 1}")]

/-- Any calls on a new table, in any order, are answered by the first use of identifiers. -/
theorem calls_are_answered_by_first_use (calls : List Call) :
    AnswersByFirstUse calls (empty.runCalls calls).1 (empty.runCalls calls).2 where
  length := length_runCalls _ _
  named _ _ h := ⟨_, List.getElem?_idxOf (mem_distinct_take h), answer_of_resolve h⟩
  apart i j a b ha hb := by
    have hmem : a ∈ distinct (askedIds calls) :=
      mem_distinct.2 (mem_askedIds.2 (List.mem_of_getElem? ha))
    have halias : ∀ {k l : Nat}, some (Answer.alias (aliasAt k)) = some (.alias (aliasAt l)) ↔
        k = l := by
      simp [aliasAt_injective.eq_iff]
    rw [answer_of_resolve ha, answer_of_resolve hb, idxOf_distinct_take ha,
      idxOf_distinct_take hb, halias, List.idxOf_inj hmem]
  dense := distinct_aliases_runCalls calls
  ids := (stored_runCalls calls).1
  aliases := (stored_runCalls calls).2
  known _ _ h := answer_of_contains h
  quiet := by rw [runCalls_empty_snd, runCalls_empty_snd, askedIds_filter]
  next := answer_resolve_stored _

example : (empty.runCalls [.resolve "pending", .resolve "paid", .resolve "pending",
    .contains "paid", .contains "shipped"]).1 =
    [.alias "S1", .alias "S2", .alias "S1", .known true, .known false] := by
  decide

end

end Mermaid.AliasTable
end ManifestAtlas
