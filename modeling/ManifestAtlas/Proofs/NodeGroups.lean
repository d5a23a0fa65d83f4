import ManifestAtlas.Proofs.SeenTexts

/-!
# Identifiers grouped by their nodes

The lint goes over the identifiers of a kind once and groups them by the node
that each gives.  `CollisionPass` is that pass: a table of the groups, and the
nodes in the order in which they came up.  A node is put behind the others when
its group is empty, and an identifier into its group unless it is there.

`CollisionPass.After` says what the table and the order are after a part of the
identifiers.  One more identifier carries it on (`after_visit`), and
`foldl_after` from there to all of them.  Then the nodes are looked up in turn,
and every group of more than one is reported.  No node is missing from the table,
and the reports are those of `sharedNodeFindings` (`report_run`).
-/

namespace ManifestAtlas

open Std (HashMap)

/-- The different identifiers that give a node. -/
def sharing (tag : String) (ids : List String) (node : String) : List String :=
  distinct (ids.filter fun id => nodeId tag id = node)

/-- The finding about a node, if several identifiers give it. -/
def groupFinding? (kind : NodeKind) (tag : String) (ids : List String) (node : String) :
    Option Finding :=
  if 1 < (sharing tag ids node).length then
    some (.sharedNode kind node (sharing tag ids node))
  else none

theorem sharedNodeFindings_eq (kind : NodeKind) (tag : String) (ids : List String) :
    sharedNodeFindings kind tag ids =
      (distinct (ids.map (nodeId tag))).filterMap (groupFinding? kind tag ids) := rfl

section

variable {tag : String} {ids : List String} {id node : String}

/-- A node that no identifier gives has no group. -/
theorem sharing_eq_nil_iff : sharing tag ids node = [] ↔ node ∉ ids.map (nodeId tag) := by
  rw [List.eq_nil_iff_forall_not_mem]
  simp [sharing, mem_distinct]

/-- An identifier joins the group of its own node, unless it is there. -/
theorem sharing_concat_self (tag : String) (ids : List String) (id : String) :
    sharing tag (ids ++ [id]) (nodeId tag id) =
      if id ∈ sharing tag ids (nodeId tag id) then sharing tag ids (nodeId tag id)
      else sharing tag ids (nodeId tag id) ++ [id] := by
  have hfilter : (ids ++ [id]).filter (fun other => nodeId tag other = nodeId tag id) =
      ids.filter (fun other => nodeId tag other = nodeId tag id) ++ [id] := by
    simp
  rw [sharing, hfilter, distinct_concat, sharing]
  exact if_congr mem_distinct.symm rfl rfl

theorem sharing_concat_of_ne (h : nodeId tag id ≠ node) :
    sharing tag (ids ++ [id]) node = sharing tag ids node := by
  simp [sharing, h]

end

/-- A check of nodes that is still running: the groups so far, and their nodes in the order in which
they came up. -/
structure CollisionPass where
  byNode : HashMap String (List String)
  order : List String

namespace CollisionPass

/-- The check before the first identifier. -/
def start : CollisionPass :=
  ⟨∅, []⟩

/-- Looks at an identifier.  Its group is there from then on. -/
def visit (tag : String) (pass : CollisionPass) (id : String) : CollisionPass :=
  let node := nodeId tag id
  let ids := pass.byNode.getD node []
  { byNode := pass.byNode.insert node (if ids.contains id then ids else ids ++ [id])
    order := if ids.isEmpty then pass.order ++ [node] else pass.order }

/-- The check of a list. -/
def run (tag : String) (ids : List String) : CollisionPass :=
  ids.foldl (visit tag) start

/-- Reports a node if its group has more than one identifier.  There is no answer for a node that
has no group. -/
def reportNode (kind : NodeKind) (byNode : HashMap String (List String))
    (diagnostics : List Diagnostic) (node : String) : Option (List Diagnostic) :=
  match byNode[node]? with
  | none => none
  | some ids =>
    if 1 < ids.length then
      some (diagnostics ++ [(Finding.sharedNode kind node ids).diagnostic])
    else some diagnostics

/-- Reports the nodes in turn, behind the report so far. -/
def report (kind : NodeKind) (pass : CollisionPass) (earlier : List Diagnostic) :
    Option (List Diagnostic) :=
  pass.order.foldlM (reportNode kind pass.byNode) earlier

/-- The check after some identifiers: it has a group for every node that one of them gives, with the
different ones that do, and the nodes as they came up. -/
structure After (tag : String) (ids : List String) (pass : CollisionPass) : Prop where
  byNode : ∀ node, pass.byNode[node]? =
    if node ∈ ids.map (nodeId tag) then some (sharing tag ids node) else none
  order : pass.order = distinct (ids.map (nodeId tag))

variable {tag : String} {ids : List String} {pass : CollisionPass}

theorem After.getD (h : After tag ids pass) (node : String) :
    pass.byNode.getD node [] = sharing tag ids node := by
  rw [HashMap.getD_eq_getD_getElem?, h.byNode node]
  split
  · rfl
  · rename_i hnode
    exact (sharing_eq_nil_iff.2 hnode).symm

theorem after_visit (id : String) (h : After tag ids pass) :
    After tag (ids ++ [id]) (pass.visit tag id) := by
  have hmap : (ids ++ [id]).map (nodeId tag) = ids.map (nodeId tag) ++ [nodeId tag id] := by
    simp
  rw [visit, h.getD]
  constructor
  · intro node
    rw [HashMap.getElem?_insert, hmap]
    by_cases hnode : nodeId tag id = node
    · subst hnode
      simp [sharing_concat_self]
    · simp [hnode, sharing_concat_of_ne hnode, h.byNode, Ne.symm hnode]
  · rw [hmap, distinct_concat, ← h.order]
    -- the group is empty just if no identifier has given the node before
    by_cases hnode : nodeId tag id ∈ ids.map (nodeId tag)
    · have hgroup : sharing tag ids (nodeId tag id) ≠ [] := fun hnil =>
        sharing_eq_nil_iff.1 hnil hnode
      simp [hnode, hgroup]
    · simp [hnode, sharing_eq_nil_iff.2 hnode]

theorem after_start (tag : String) : After tag [] start where
  byNode node := by simp [start]
  order := rfl

theorem after_run (tag : String) (ids : List String) : After tag ids (run tag ids) :=
  foldl_after (fun id => after_visit id) (after_start tag) ids

/-! ## The reports -/

theorem reportNode_eq {kind : NodeKind} {node : String} (h : After tag ids pass)
    (hnode : node ∈ ids.map (nodeId tag)) (diagnostics : List Diagnostic) :
    reportNode kind pass.byNode diagnostics node =
      some (diagnostics ++ ((groupFinding? kind tag ids node).map Finding.diagnostic).toList) := by
  rw [reportNode, h.byNode, if_pos hnode, groupFinding?]
  dsimp only
  split
  · rfl
  · simp

/-- Every node that is looked up has a group, and adds its finding to the report. -/
theorem foldlM_reportNode {kind : NodeKind} {nodes : List String} (h : After tag ids pass)
    (hnodes : ∀ node ∈ nodes, node ∈ ids.map (nodeId tag)) (earlier : List Diagnostic) :
    nodes.foldlM (reportNode kind pass.byNode) earlier =
      some (earlier ++ (nodes.filterMap (groupFinding? kind tag ids)).map Finding.diagnostic) := by
  induction nodes generalizing earlier with
  | nil => simp
  | cons node nodes ih =>
    obtain ⟨hnode, hrest⟩ := List.forall_mem_cons.1 hnodes
    rw [List.foldlM_cons, reportNode_eq h hnode, Option.bind_eq_bind, Option.bind_some, ih hrest,
      List.filterMap_cons]
    cases groupFinding? kind tag ids node with
    | none => simp
    | some finding => simp

/-- The check reports the shared nodes, behind the report so far. -/
theorem report_run (kind : NodeKind) (tag : String) (ids : List String)
    (earlier : List Diagnostic) :
    (run tag ids).report kind earlier =
      some (earlier ++ (sharedNodeFindings kind tag ids).map Finding.diagnostic) := by
  have hafter := after_run tag ids
  rw [report, hafter.order, sharedNodeFindings_eq]
  exact foldlM_reportNode hafter (fun node hnode => mem_distinct.1 hnode) earlier

end CollisionPass

end ManifestAtlas
