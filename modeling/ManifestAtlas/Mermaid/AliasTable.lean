/-!
# Aliases of states

A state diagram wants short bare names, so states are called `S1`, `S2` and so
on, in the order in which they are first mentioned.

Main statements: a table never mentions an identifier twice
(`AliasTable.nodup_mention`), and mentioning an identifier again changes
nothing (`AliasTable.mention_of_contains`).
-/

namespace ManifestAtlas.Mermaid

/-- The identifiers that have an alias, in the order of their aliases. -/
structure AliasTable where
  ids : List String
  deriving DecidableEq, Repr

namespace AliasTable

/-- The table without aliases. -/
def empty : AliasTable :=
  ⟨[]⟩

/-- Whether an identifier has an alias. -/
def contains (table : AliasTable) (id : String) : Bool :=
  table.ids.contains id

/-- Gives the identifier an alias, if it has none. -/
def mention (table : AliasTable) (id : String) : AliasTable :=
  if table.contains id then table else ⟨table.ids ++ [id]⟩

/-- The alias of an identifier of the table; the next free one for any other. -/
def nameOf (table : AliasTable) (id : String) : String :=
  s!"S{table.ids.idxOf id + 1}"

/-- The alias of an identifier, and the table in which it has one. -/
def resolve (table : AliasTable) (id : String) : String × AliasTable :=
  (table.nameOf id, table.mention id)

/-- The table of the identifiers in a list, in the order of their first mention. -/
def ofMentions (ids : List String) : AliasTable :=
  ids.foldl mention empty

theorem mention_of_contains {table : AliasTable} {id : String} (h : table.contains id = true) :
    table.mention id = table := by
  simp [mention, h]

theorem nodup_mention {table : AliasTable} (h : table.ids.Nodup) (id : String) :
    (table.mention id).ids.Nodup := by
  unfold mention
  split
  · exact h
  · rename_i hc
    refine List.nodup_append.2 ⟨h, by simp, ?_⟩
    intro a ha b hb hab
    rw [List.mem_singleton.1 hb] at hab
    exact hc (by simpa [contains] using hab ▸ ha)

end AliasTable

end ManifestAtlas.Mermaid
