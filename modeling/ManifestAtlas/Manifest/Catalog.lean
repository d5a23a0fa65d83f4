/-!
# Reference data of a project

Entities, data models, the glossary and the changelog, which belong to the
project as a whole.

Main statement: putting an entry under a key keeps the keys of a glossary in
ascending order (`ascending_put`), so that a glossary never holds a key twice.
-/

namespace ManifestAtlas

/-- A business entity and the statuses that it goes through. -/
structure Entity where
  id : String
  name : String
  description : Option String
  keyFields : List String
  statuses : List String
  deriving DecidableEq, Repr

/-- A field of a data model. -/
structure Field where
  name : String
  type : String
  description : Option String
  deriving DecidableEq, Repr

/-- A data structure that is stored. -/
structure DataModel where
  id : String
  name : String
  description : Option String
  fields : List Field
  deriving DecidableEq, Repr

/-- The entry for a term. -/
structure GlossaryEntry where
  term : String
  description : String
  deriving DecidableEq, Repr

/-- An entry of the changelog. -/
structure ChangelogEntry where
  date : String
  kind : String
  summary : String
  deriving DecidableEq, Repr

/-- Whether the keys of a list of entries ascend. -/
def Ascending (entries : List (String × GlossaryEntry)) : Prop :=
  entries.Pairwise fun a b => a.1 < b.1

/-- The entries with `entry` under `key`, in place of any earlier one. -/
def put (key : String) (entry : GlossaryEntry) :
    List (String × GlossaryEntry) → List (String × GlossaryEntry)
  | [] => [(key, entry)]
  | other :: rest =>
    if key < other.1 then (key, entry) :: other :: rest
    else if other.1 < key then other :: put key entry rest
    else (key, entry) :: rest

theorem mem_put {key : String} {entry : GlossaryEntry} {entries : List (String × GlossaryEntry)}
    {x : String × GlossaryEntry} (h : x ∈ put key entry entries) :
    x = (key, entry) ∨ x ∈ entries := by
  induction entries with
  | nil => exact .inl (by simpa [put] using h)
  | cons other rest ih =>
    unfold put at h
    split at h
    · rcases List.mem_cons.1 h with h | h
      · exact .inl h
      · exact .inr h
    · split at h
      · rcases List.mem_cons.1 h with h | h
        · exact .inr (h ▸ List.mem_cons_self)
        · exact (ih h).imp id (List.mem_cons_of_mem _)
      · rcases List.mem_cons.1 h with h | h
        · exact .inl h
        · exact .inr (List.mem_cons_of_mem _ h)

theorem ascending_put {entries : List (String × GlossaryEntry)} (h : Ascending entries)
    (key : String) (entry : GlossaryEntry) : Ascending (put key entry entries) := by
  induction entries with
  | nil => exact List.pairwise_singleton _ _
  | cons other rest ih =>
    have hcons := List.pairwise_cons.1 h
    unfold put
    split
    · rename_i hlt
      refine List.pairwise_cons.2 ⟨?_, h⟩
      intro x hx
      rcases List.mem_cons.1 hx with rfl | hx
      · exact hlt
      · exact String.lt_trans hlt (hcons.1 x hx)
    · split
      · rename_i _ hgt
        refine List.pairwise_cons.2 ⟨?_, ih hcons.2⟩
        intro x hx
        rcases mem_put hx with rfl | hx
        · exact hgt
        · exact hcons.1 x hx
      · rename_i hlt hgt
        have heq : key = other.1 := String.le_antisymm (String.not_lt.1 hgt) (String.not_lt.1 hlt)
        refine List.pairwise_cons.2 ⟨?_, hcons.2⟩
        intro x hx
        rw [heq]
        exact hcons.1 x hx

/-- The glossary: entries by key, in ascending order of their keys. -/
structure Glossary where
  entries : List (String × GlossaryEntry)
  ascending : Ascending entries

/-- The glossary without entries. -/
def Glossary.empty : Glossary :=
  ⟨[], List.Pairwise.nil⟩

/-- Puts an entry under a key, in place of any earlier one. -/
def Glossary.insert (glossary : Glossary) (key : String) (entry : GlossaryEntry) : Glossary :=
  ⟨put key entry glossary.entries, ascending_put glossary.ascending key entry⟩

@[ext] theorem Glossary.ext {a b : Glossary} (h : a.entries = b.entries) : a = b := by
  cases a
  cases b
  simpa using h

instance : DecidableEq Glossary := fun a b =>
  decidable_of_iff (a.entries = b.entries) ⟨Glossary.ext, congrArg Glossary.entries⟩

end ManifestAtlas
