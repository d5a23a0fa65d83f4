import ManifestAtlas.Proofs.LintFindings
import ManifestAtlas.Proofs.NodeGroups

/-!
# Nodes that several identifiers share

The dependency diagram names its nodes by words that are minted from
identifiers, and nothing in the diagram keeps two identifiers apart that give
one word.  The lint has to.  This module shows that it does: the nodes of a
graph have different names exactly when the lint is silent about repeated
module identifiers and about shared nodes, and every shared node is reported
once, with all the identifiers that share it
(`lint_warns_of_shared_nodes`).

The argument has four parts.

* The two tags never meet (`nodeId_module_ne_external`), so that a name belongs
  to one kind of node only.
* A name is shared by nodes of one kind when two different identifiers of that
  kind give it: `NodeKind.Collides`.
* `filter_sharedNodeFindings` computes what one pass of the lint says about one
  name, for any list of identifiers.
* The two passes write what the lint says about shared nodes
  (`CollisionPass.report_run`, `filter_lint_isShared`).
-/

namespace ManifestAtlas

/-! ## Tags and kinds -/

/-- The tag of the nodes of a kind. -/
def NodeKind.tag : NodeKind → String
  | .modules => moduleTag
  | .dependencies => externalTag

/-- The identifiers behind the nodes of a kind, in the order of the nodes. -/
def NodeKind.ids (manifest : Manifest) : NodeKind → List String
  | .modules => manifest.modules.map (·.id)
  | .dependencies => (ModuleGraph.build manifest).externals

/-- Two different identifiers of a kind give the node. -/
def NodeKind.Collides (kind : NodeKind) (manifest : Manifest) (node : String) : Prop :=
  ∃ a ∈ kind.ids manifest, ∃ b ∈ kind.ids manifest,
    a ≠ b ∧ nodeId kind.tag a = node ∧ nodeId kind.tag b = node

/-- The first letter of a name tells the two kinds of nodes apart. -/
theorem nodeId_module_ne_external (a b : String) :
    nodeId moduleTag a ≠ nodeId externalTag b := by
  intro h
  have hlist := congrArg String.toList h
  rw [nodeId, nodeId, String.toList_append, String.toList_append] at hlist
  have hhead := congrArg List.head? hlist
  simp [moduleTag, externalTag] at hhead

/-- A name belongs to one kind of node. -/
theorem NodeKind.eq_of_nodeId_eq {k l : NodeKind} {a b : String}
    (h : nodeId k.tag a = nodeId l.tag b) : k = l := by
  cases k <;> cases l
  · rfl
  · exact absurd h (nodeId_module_ne_external a b)
  · exact absurd h.symm (nodeId_module_ne_external b a)
  · rfl

/-- The names of all nodes: those of the modules, then those of the external dependencies. -/
theorem nodeIds_build (manifest : Manifest) :
    (ModuleGraph.build manifest).nodes.map DependencyNode.nodeId =
      (NodeKind.ids manifest .modules).map (nodeId moduleTag) ++
        (NodeKind.ids manifest .dependencies).map (nodeId externalTag) := by
  rw [ModuleGraph.nodes, List.map_append, List.map_map, List.map_map, NodeKind.ids, List.map_map]
  rfl

theorem nodup_externals (manifest : Manifest) : (ModuleGraph.build manifest).externals.Nodup :=
  nodup_distinct _

/-- Names repeat when identifiers repeat, or when different ones give one name. -/
private theorem nodup_map_nodeId {tag : String} {ids : List String} :
    (ids.map (nodeId tag)).Nodup ↔
      ids.Nodup ∧ ∀ a ∈ ids, ∀ b ∈ ids, nodeId tag a = nodeId tag b → a = b := by
  constructor
  · intro h
    exact ⟨h.of_map, fun a ha b hb => List.inj_on_of_nodup_map h ha hb⟩
  · intro hkeys
    obtain ⟨hids, hinj⟩ := hkeys
    exact hids.map_on hinj

/-- The names of the nodes differ when the module identifiers differ and no name is shared. -/
theorem nodup_nodeIds_build_iff (manifest : Manifest) :
    ((ModuleGraph.build manifest).nodes.map DependencyNode.nodeId).Nodup ↔
      (manifest.modules.map (·.id)).Nodup ∧
        ∀ (kind : NodeKind) (node : String), ¬ kind.Collides manifest node := by
  have happart : ∀ x ∈ (NodeKind.ids manifest .modules).map (nodeId moduleTag),
      ∀ y ∈ (NodeKind.ids manifest .dependencies).map (nodeId externalTag), x ≠ y := by
    intro x hx y hy
    obtain ⟨a, _, rfl⟩ := List.mem_map.1 hx
    obtain ⟨b, _, rfl⟩ := List.mem_map.1 hy
    exact nodeId_module_ne_external a b
  rw [nodeIds_build, List.nodup_append, nodup_map_nodeId, nodup_map_nodeId]
  constructor
  · intro h
    obtain ⟨⟨hids, hmodules⟩, ⟨_, hexternals⟩, _⟩ := h
    refine ⟨hids, ?_⟩
    intro kind node hcollides
    obtain ⟨a, ha, b, hb, hab, hna, hnb⟩ := hcollides
    cases kind with
    | modules => exact hab (hmodules a ha b hb (hna.trans hnb.symm))
    | dependencies => exact hab (hexternals a ha b hb (hna.trans hnb.symm))
  · intro h
    obtain ⟨hids, hno⟩ := h
    have hinj : ∀ kind : NodeKind, ∀ a ∈ kind.ids manifest, ∀ b ∈ kind.ids manifest,
        nodeId kind.tag a = nodeId kind.tag b → a = b := by
      intro kind a ha b hb hab
      by_contra hne
      exact hno kind _ ⟨a, ha, b, hb, hne, hab, rfl⟩
    exact ⟨⟨hids, hinj .modules⟩, ⟨nodup_externals manifest, hinj .dependencies⟩, happart⟩

/-! ## What the lint says about a node -/

/-- The node that a finding reports as shared. -/
def Finding.sharedNode? : Finding → Option String
  | .sharedNode _ node _ => some node
  | _ => none

/-- Whether a finding reports a repeated module identifier. -/
def Finding.isDuplicateModule : Finding → Bool
  | .duplicateId .module .manifest _ => true
  | _ => false

/-- Of the images of a list without repeats, at most one carries a given mark. -/
private theorem filter_filterMap_of_nodup {α β : Type} [DecidableEq α] {g : α → Option β}
    {mark : β → Option α} (hmark : ∀ a b, g a = some b → mark b = some a) {l : List α}
    (hl : l.Nodup) (a : α) :
    (l.filterMap g).filter (fun b => mark b = some a) = if a ∈ l then (g a).toList else [] := by
  induction l with
  | nil => rfl
  | cons x l ih =>
    obtain ⟨hx, hrest⟩ := List.nodup_cons.1 hl
    have ih := ih hrest
    by_cases hax : a = x
    · subst hax
      rw [if_pos List.mem_cons_self, List.filterMap_cons]
      rw [if_neg hx] at ih
      cases hg : g a with
      | none => exact ih
      | some b =>
        simp only [hmark a b hg, decide_true, List.filter_cons_of_pos, ih, Option.toList_some]
    · have hmem : a ∈ x :: l ↔ a ∈ l := by
        rw [List.mem_cons, or_iff_right hax]
      simp only [hmem, ← ih, List.filterMap_cons]
      cases hg : g x with
      | none => rfl
      | some b =>
        have hne : mark b ≠ some a := by
          rw [hmark x b hg]
          exact fun h => hax (Option.some.inj h).symm
        simp [hne]

theorem sharedNode?_of_groupFinding? {kind : NodeKind} {tag : String} {ids : List String}
    {node : String} {f : Finding} (h : groupFinding? kind tag ids node = some f) :
    f.sharedNode? = some node := by
  rw [groupFinding?] at h
  split at h
  · cases h
    rfl
  · cases h

/-- What a pass over identifiers says about one node: nothing, or all the identifiers that give
it. -/
theorem filter_sharedNodeFindings (kind : NodeKind) (tag : String) (ids : List String)
    (node : String) :
    (sharedNodeFindings kind tag ids).filter (fun f => f.sharedNode? = some node) =
      (groupFinding? kind tag ids node).toList := by
  rw [sharedNodeFindings_eq,
    filter_filterMap_of_nodup (fun _ _ => sharedNode?_of_groupFinding?) (nodup_distinct _) node]
  split
  · rfl
  · rename_i hnode
    rw [mem_distinct, ← sharing_eq_nil_iff] at hnode
    simp [groupFinding?, hnode]

/-- Everything that the lint says about shared nodes comes from its two passes. -/
theorem filter_lint_isShared (manifest : Manifest) :
    (lint manifest).findings.filter (fun f => f.sharedNode?.isSome) =
      sharedNodeFindings .modules moduleTag (NodeKind.ids manifest .modules) ++
        sharedNodeFindings .dependencies externalTag (NodeKind.ids manifest .dependencies) := by
  have hduplicates := filter_duplicateFindings_eq_nil
    (p := fun f => f.sharedNode?.isSome) fun _ _ _ => rfl
  have hexternals := filter_externalFindings_eq_nil
    (p := fun f => f.sharedNode?.isSome) fun _ _ => rfl
  have hcycles := filter_cycles_eq_nil (p := fun f => f.sharedNode?.isSome) fun _ => rfl
  have hshared : ∀ kind tag ids, (sharedNodeFindings kind tag ids).filter
      (fun f => f.sharedNode?.isSome) = sharedNodeFindings kind tag ids := by
    intro kind tag ids
    refine List.filter_eq_self.2 fun f hf => ?_
    rw [sharedNodeFindings_eq] at hf
    obtain ⟨node, -, hnode⟩ := List.mem_filterMap.1 hf
    rw [sharedNode?_of_groupFinding? hnode]
    rfl
  rw [filter_lint_findings]
  · simp only [graphFindings, List.filter_append, hduplicates, hshared, hexternals, hcycles,
      List.nil_append, List.append_nil, NodeKind.ids]
  · intro f owner h
    cases f <;> first | rfl | cases h

theorem filter_lint_sharedNode (manifest : Manifest) (node : String) :
    (lint manifest).findings.filter (fun f => f.sharedNode? = some node) =
      (sharedNodeFindings .modules moduleTag (NodeKind.ids manifest .modules)).filter
          (fun f => f.sharedNode? = some node) ++
        (sharedNodeFindings .dependencies externalTag (NodeKind.ids manifest .dependencies)).filter
          (fun f => f.sharedNode? = some node) := by
  rw [← List.filter_append, ← filter_lint_isShared, List.filter_filter]
  refine List.filter_congr fun f _ => ?_
  cases f.sharedNode? <;> simp

/-- Everything that the lint says about repeated module identifiers comes from its first pass. -/
theorem filter_lint_isDuplicateModule (manifest : Manifest) :
    (lint manifest).findings.filter Finding.isDuplicateModule =
      duplicateFindings .module .manifest (manifest.modules.map (·.id)) := by
  have hduplicates : (duplicateFindings .module .manifest (manifest.modules.map (·.id))).filter
      Finding.isDuplicateModule =
        duplicateFindings .module .manifest (manifest.modules.map (·.id)) := by
    refine List.filter_eq_self.2 fun f hf => ?_
    obtain ⟨id, _, rfl⟩ := mem_duplicateFindings.1 hf
    rfl
  have hshared := filter_sharedNodeFindings_eq_nil
    (p := Finding.isDuplicateModule) fun _ _ _ => rfl
  have hexternals := filter_externalFindings_eq_nil
    (p := Finding.isDuplicateModule) fun _ _ => rfl
  have hcycles := filter_cycles_eq_nil (p := Finding.isDuplicateModule) fun _ => rfl
  rw [filter_lint_findings]
  · simp only [graphFindings, List.filter_append, hduplicates, hshared, hexternals, hcycles,
      List.append_nil]
  · intro f owner h
    unfold Finding.isDuplicateModule
    split
    · cases h
    · rfl

/-- Two different identifiers of a kind give a node when its group has more than one. -/
theorem NodeKind.collides_iff {kind : NodeKind} {manifest : Manifest} {node : String} :
    kind.Collides manifest node ↔
      1 < (sharing kind.tag (kind.ids manifest) node).length := by
  rw [sharing, one_lt_length_distinct]
  simp only [NodeKind.Collides, List.mem_filter, decide_eq_true_eq]
  constructor
  · intro h
    obtain ⟨a, ha, b, hb, hab, hna, hnb⟩ := h
    exact ⟨a, ⟨ha, hna⟩, b, ⟨hb, hnb⟩, hab⟩
  · intro h
    obtain ⟨a, ⟨ha, hna⟩, b, ⟨hb, hnb⟩, hab⟩ := h
    exact ⟨a, ha, b, hb, hab, hna, hnb⟩

/-- The warning about a node that several identifiers of a kind give lists them all. -/
private theorem filter_sharedNode_of_collides {kind : NodeKind} {manifest : Manifest}
    {node : String} (h : kind.Collides manifest node) :
    (sharedNodeFindings kind kind.tag (kind.ids manifest)).filter
        (fun f => f.sharedNode? = some node) =
      [.sharedNode kind node (sharing kind.tag (kind.ids manifest) node)] := by
  rw [filter_sharedNodeFindings, groupFinding?, if_pos (NodeKind.collides_iff.1 h)]
  rfl

private theorem filter_sharedNode_of_not_collides {kind : NodeKind} {manifest : Manifest}
    {node : String} (h : ¬ kind.Collides manifest node) :
    (sharedNodeFindings kind kind.tag (kind.ids manifest)).filter
      (fun f => f.sharedNode? = some node) = [] := by
  rw [filter_sharedNodeFindings, groupFinding?, if_neg (mt NodeKind.collides_iff.2 h)]
  rfl

/-- The lint is silent about repeated module identifiers exactly when none repeats. -/
theorem forall_isDuplicateModule_iff (manifest : Manifest) :
    (∀ f ∈ (lint manifest).findings, f.isDuplicateModule = false) ↔
      (manifest.modules.map (·.id)).Nodup := by
  rw [← duplicateFindings_eq_nil_iff .module .manifest,
    ← filter_lint_isDuplicateModule, List.filter_eq_nil_iff]
  simp only [Bool.not_eq_true]

/-- The one warning about a node, if identifiers of some kind share it. -/
theorem filter_lint_of_collides {kind : NodeKind} {manifest : Manifest} {node : String}
    (h : kind.Collides manifest node) :
    (lint manifest).findings.filter (fun f => f.sharedNode? = some node) =
      [.sharedNode kind node (sharing kind.tag (kind.ids manifest) node)] := by
  have hone : ∀ other : NodeKind, other ≠ kind → ¬ other.Collides manifest node := by
    intro other hother hcollides
    obtain ⟨b, _, _, _, _, hb, _⟩ := hcollides
    obtain ⟨a, _, _, _, _, ha, _⟩ := h
    exact hother (NodeKind.eq_of_nodeId_eq (hb.trans ha.symm))
  rw [filter_lint_sharedNode]
  cases kind with
  | modules =>
    have hrest := filter_sharedNode_of_not_collides (hone .dependencies (by decide))
    exact (congrArg₂ (· ++ ·) (filter_sharedNode_of_collides h) hrest).trans (List.append_nil _)
  | dependencies =>
    have hfirst := filter_sharedNode_of_not_collides (hone .modules (by decide))
    exact congrArg₂ (· ++ ·) hfirst (filter_sharedNode_of_collides h)

theorem filter_lint_of_not_collides {manifest : Manifest} {node : String}
    (h : ∀ kind : NodeKind, ¬ kind.Collides manifest node) :
    (lint manifest).findings.filter (fun f => f.sharedNode? = some node) = [] := by
  rw [filter_lint_sharedNode]
  exact congrArg₂ (· ++ ·) (filter_sharedNode_of_not_collides (h .modules))
    (filter_sharedNode_of_not_collides (h .dependencies))

/-- The lint is silent about shared nodes exactly when no node is shared. -/
theorem forall_sharedNode?_iff (manifest : Manifest) :
    (∀ f ∈ (lint manifest).findings, f.sharedNode? = none) ↔
      ∀ (kind : NodeKind) (node : String), ¬ kind.Collides manifest node := by
  constructor
  · intro h kind node hcollides
    have hmem : Finding.sharedNode kind node (sharing kind.tag (kind.ids manifest) node) ∈
        (lint manifest).findings.filter (fun f => f.sharedNode? = some node) := by
      rw [filter_lint_of_collides hcollides]
      exact List.mem_singleton_self _
    cases h _ (List.mem_filter.1 hmem).1
  · intro h f hf
    cases hnode : f.sharedNode? with
    | none => rfl
    | some node =>
      have hmem : f ∈ (lint manifest).findings.filter (fun f => f.sharedNode? = some node) :=
        List.mem_filter.2 ⟨hf, decide_eq_true hnode⟩
      rw [filter_lint_of_not_collides (fun kind => h kind node)] at hmem
      cases hmem

/-! ## The diagram against the lint -/

/-- The nodes of the diagram have different names exactly when the lint reports neither a repeated
module identifier nor a shared node.  A node that several identifiers of a kind give is reported
once, with these identifiers in the order of their first occurrence, and no other node is.  What the
lint says about shared nodes is what the passes over the two kinds of identifiers write, each behind
the report that it finds. -/
theorem lint_warns_of_shared_nodes (manifest : Manifest) :
    (((ModuleGraph.build manifest).nodes.map DependencyNode.nodeId).Nodup ↔
      ∀ f ∈ (lint manifest).findings, f.isDuplicateModule = false ∧ f.sharedNode? = none) ∧
    (∀ (kind : NodeKind) (node : String), kind.Collides manifest node →
      ∃ ids, FirstOccurrences (kind.ids manifest) (fun id => nodeId kind.tag id = node) ids ∧
        (lint manifest).findings.filter (fun f => f.sharedNode? = some node) =
          [.sharedNode kind node ids]) ∧
    (∀ node : String, (∀ kind : NodeKind, ¬ kind.Collides manifest node) →
      (lint manifest).findings.filter (fun f => f.sharedNode? = some node) = []) ∧
    (∀ (kind : NodeKind) (earlier : List Diagnostic),
      (CollisionPass.run kind.tag (kind.ids manifest)).report kind earlier =
        some (earlier ++
          (sharedNodeFindings kind kind.tag (kind.ids manifest)).map Finding.diagnostic)) ∧
    (lint manifest).findings.filter (fun f => f.sharedNode?.isSome) =
      sharedNodeFindings .modules moduleTag (NodeKind.ids manifest .modules) ++
        sharedNodeFindings .dependencies externalTag (NodeKind.ids manifest .dependencies) := by
  refine ⟨?_, ?_, ?_, fun kind => CollisionPass.report_run kind _ _,
    filter_lint_isShared manifest⟩
  · rw [nodup_nodeIds_build_iff, ← forall_isDuplicateModule_iff, ← forall_sharedNode?_iff]
    exact forall₂_and.symm
  · intro kind node hcollides
    have hfirst := firstOccurrences_distinct_filter (kind.ids manifest)
      (fun id => nodeId kind.tag id = node)
    simp only [decide_eq_true_eq] at hfirst
    exact ⟨_, hfirst, filter_lint_of_collides hcollides⟩
  · intro node h
    exact filter_lint_of_not_collides h

end ManifestAtlas
