/-!
# Node identifiers of flow diagrams

A flow diagram names its nodes by words of `[A-Za-z0-9_]`.  `nodeId` mints
such a word from any identifier of the manifest: characters outside that set
become underscores, an empty identifier becomes `x`, and a leading digit gets
an underscore in front.  A tag that says what kind of node it is comes first.

Different identifiers can share a node: `a-b` and `a.b` both give `a_b`.
Nothing here tells them apart again; the lint reports such pairs.

Main statement: what follows the tag is a nonempty word that does not start
with a digit (`isWord_nodeWord`).
-/

namespace ManifestAtlas

/-- The characters that a node identifier may hold. -/
def isNodeChar (c : Char) : Bool :=
  c.isAlphanum || c == '_'

/-- The identifier with every character that a node may not hold replaced. -/
def maskNodeChars (raw : List Char) : List Char :=
  raw.map fun c => if isNodeChar c then c else '_'

/-- The word that stands for a raw identifier in a diagram. -/
def nodeWord (raw : List Char) : List Char :=
  match maskNodeChars raw with
  | [] => ['x']
  | c :: rest => if c.isDigit then '_' :: c :: rest else c :: rest

/-- The node identifier of `raw` among the nodes of one kind. -/
def nodeId (tag raw : String) : String :=
  tag ++ String.ofList (nodeWord raw.toList)

/-- A word that can open an identifier: nonempty, and no digit in front. -/
def IsWord : List Char → Prop
  | [] => False
  | c :: rest => c.isDigit = false ∧ ∀ x ∈ c :: rest, isNodeChar x = true

theorem isNodeChar_of_mem_mask {raw : List Char} {x : Char} (h : x ∈ maskNodeChars raw) :
    isNodeChar x = true := by
  obtain ⟨c, _, rfl⟩ := List.mem_map.1 h
  by_cases hc : isNodeChar c = true
  · simp [hc]
  · simp only [if_neg hc]
    decide

theorem isWord_nodeWord (raw : List Char) : IsWord (nodeWord raw) := by
  have hmask : ∀ x ∈ maskNodeChars raw, isNodeChar x = true := fun _ => isNodeChar_of_mem_mask
  unfold nodeWord
  split
  · exact ⟨by decide, by simp; decide⟩
  · rename_i c rest he
    rw [he] at hmask
    split
    · refine ⟨by decide, ?_⟩
      intro x hx
      rcases List.mem_cons.1 hx with rfl | hx
      · decide
      · exact hmask x hx
    · rename_i hd
      exact ⟨by simpa using hd, hmask⟩

end ManifestAtlas
