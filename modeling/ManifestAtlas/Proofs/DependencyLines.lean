import Mathlib
import ManifestAtlas.Diagram.DependencyDiagram
import ManifestAtlas.Proofs.DependencyWalks
import ManifestAtlas.Proofs.SharedNodes
import ManifestAtlas.Proofs.TextLines

/-!
# The lines of a dependency diagram

The text of a dependency diagram, seen line by line, is the graph: one line for
each node, one for each edge, and two for the style of the external nodes, if
there are any.  What names, identifiers and dependencies hold makes no
difference to that.

There are three groups.

* The lines that are expected, and the words in them.  An identifier is a tag
  and a word (`isNodeName_nodeId`), and a label holds no double quote.
* Every edge joins two nodes of the graph (`target_lt`), so that no edge is
  left out of the text.
* Reading back.  `readNode?` and `readArrow?` take a line apart without
  knowing what it was written from; they find the nodes and the edges again
  (`filterMap_readNode?`, `filterMap_readArrow?`).
-/

namespace ManifestAtlas

open Mermaid
open ModuleGraph (build)

/-! ## The lines that are expected -/

/-- The line of a node. -/
def nodeLine (id label : String) : String :=
  "    " ++ id ++ "[\"" ++ label ++ "\"]"

/-- The two lines for the style of external nodes; none without such nodes. -/
def styleLines (ids : List String) : List String :=
  if ids = [] then []
  else
    ["    classDef external fill:#f6f6f6,stroke:#999,stroke-dasharray:4 2",
      "    class " ++ ",".intercalate ids ++ " external"]

namespace ModuleGraph

/-- The name of the node at a position. -/
def idAt (graph : ModuleGraph) (i : Nat) : String :=
  ((graph.nodes[i]?).map DependencyNode.nodeId).getD ""

/-- The edges, as pairs of names of nodes. -/
def edgeIds (graph : ModuleGraph) : List (String × String) :=
  graph.edges.map fun e => (graph.idAt e.1, graph.idAt e.2)

/-- The names of the external nodes, in order. -/
def externalIds (graph : ModuleGraph) : List String :=
  (graph.nodes.filter DependencyNode.isExternal).map DependencyNode.nodeId

/-- All lines of a diagram but the header. -/
def graphLines (graph : ModuleGraph) : List String :=
  graph.nodes.map (fun node => nodeLine node.nodeId (escapeLabel node.label)) ++
  graph.edgeIds.map (fun e => arrowLine e.1 e.2) ++
  styleLines graph.externalIds

end ModuleGraph

/-- A name of a node: a tag, and a word of letters, digits and underscores that does not start
with a digit. -/
def IsNodeName (name : String) : Prop :=
  ∃ tag word, (tag = "mod_" ∨ tag = "ext_") ∧ IsWord word ∧ name = tag ++ String.ofList word

theorem isNodeName_nodeId (node : DependencyNode) : IsNodeName node.nodeId := by
  cases node with
  | module m => exact ⟨_, _, .inl rfl, isWord_nodeWord m.id.toList, rfl⟩
  | external id => exact ⟨_, _, .inr rfl, isWord_nodeWord id.toList, rfl⟩

/-- The tag of a name tells modules from external nodes. -/
theorem nodeId_ne_of_isExternal_ne {node other : DependencyNode}
    (h : node.isExternal ≠ other.isExternal) : node.nodeId ≠ other.nodeId := by
  cases node with
  | module m =>
    cases other with
    | module n => exact absurd rfl h
    | external id => exact nodeId_module_ne_external m.id id
  | external id =>
    cases other with
    | module m => exact (nodeId_module_ne_external m.id id).symm
    | external other => exact absurd rfl h

theorem IsWord.isNodeChar {word : List Char} (h : IsWord word) {c : Char} (hc : c ∈ word) :
    isNodeChar c = true := by
  cases word with
  | nil => cases hc
  | cons first rest => exact h.2 c hc

theorem IsNodeName.isNodeChar {name : String} (h : IsNodeName name) {c : Char}
    (hc : c ∈ name.toList) : isNodeChar c = true := by
  obtain ⟨tag, word, htag, hword, rfl⟩ := h
  rw [String.toList_append, String.toList_ofList, List.mem_append] at hc
  rcases hc with hc | hc
  · have htags : tag.toList.all ManifestAtlas.isNodeChar = true := by
      rcases htag with rfl | rfl <;> decide
    exact List.all_eq_true.1 htags c hc
  · exact hword.isNodeChar hc

theorem IsNodeName.isOneLine {name : String} (h : IsNodeName name) : IsOneLine name :=
  isOneLine_of_isNodeChar fun _ hc => h.isNodeChar hc

/-! ## Every edge joins two nodes -/

section

variable {manifest : Manifest}

/-- A dependency that names no module has an external node. -/
theorem mem_externals_of_position {module : Module} (hm : module ∈ manifest.modules) {id : String}
    (hid : id ∈ ModuleGraph.dependenciesOf module)
    (hnone : manifest.modules.findIdx? (·.id == id) = none) :
    id ∈ (build manifest).externals := by
  have hall : manifest.modules.all (·.id != id) = true := by
    rw [List.findIdx?_eq_none_iff] at hnone
    simpa using hnone
  exact mem_distinct.2 (List.mem_filter.2 ⟨List.mem_flatMap.2 ⟨module, hm, hid⟩, hall⟩)

/-- Every edge ends at a node. -/
theorem target_lt {e : Nat × Nat} (h : e ∈ (build manifest).edges) :
    e.2 < (build manifest).nodes.length := by
  obtain ⟨module, hmodule, id, hid, hposition⟩ := mem_edges_build.1 h
  rw [length_nodes, ← hposition, ModuleGraph.position]
  cases hfirst : manifest.modules.findIdx? (·.id == id) with
  | some i =>
    have hlt : i < manifest.modules.length := lt_of_firstPosition? hfirst
    exact Nat.lt_add_right _ hlt
  | none =>
    have hmem := mem_externals_of_position (List.mem_of_getElem? hmodule) hid hfirst
    exact Nat.add_lt_add_left (List.idxOf_lt_length_of_mem hmem) _

end

/-- Between positions of nodes, the name at a position is the name of a node. -/
theorem idAt_mem {graph : ModuleGraph} {i : Nat} (h : i < graph.nodes.length) :
    graph.idAt i ∈ graph.nodes.map DependencyNode.nodeId := by
  rw [ModuleGraph.idAt, List.getElem?_eq_getElem h]
  exact List.mem_map_of_mem (List.getElem_mem h)

/-- No edge is dropped when positions are turned into nodes. -/
theorem map_nodePairs {graph : ModuleGraph}
    (h : ∀ e ∈ graph.edges, e.1 < graph.nodes.length ∧ e.2 < graph.nodes.length) :
    graph.nodePairs.map (fun pair => (pair.1.nodeId, pair.2.nodeId)) = graph.edgeIds := by
  have hpair : ∀ edges ⊆ graph.edges,
      (edges.filterMap fun e => do some (← graph.nodes[e.1]?, ← graph.nodes[e.2]?)).map
        (fun pair => (pair.1.nodeId, pair.2.nodeId)) =
      edges.map fun e => (graph.idAt e.1, graph.idAt e.2) := by
    intro edges hsub
    induction edges with
    | nil => rfl
    | cons e edges ih =>
      obtain ⟨hi, hj⟩ := h e (hsub List.mem_cons_self)
      have hrest := ih fun x hx => hsub (List.mem_cons_of_mem _ hx)
      rw [List.filterMap_cons_some (b := (graph.nodes[e.1], graph.nodes[e.2])), List.map_cons,
        List.map_cons, hrest]
      · simp [ModuleGraph.idAt, hi, hj]
      · simp [hi, hj]
  have hall := hpair graph.edges (fun _ hx => hx)
  rw [← ModuleGraph.edgeIds] at hall
  simpa [ModuleGraph.nodePairs] using hall

/-! ## The statements as lines -/

theorem statementLine_node (node : DependencyNode) :
    Lines.statementLine node.statement.text = nodeLine node.nodeId (escapeLabel node.label) := by
  rw [← String.toList_inj]
  simp [Lines.statementLine, DependencyNode.statement, FlowStatement.text, Shape.enclose,
    quotedLabel, nodeLine]

theorem statementLine_arrow (source target : String) :
    Lines.statementLine (FlowStatement.arrow source target).text = arrowLine source target := by
  rw [← String.toList_inj]
  simp [Lines.statementLine, FlowStatement.text, arrowLine, toString]

theorem map_statementLine_externalStyle (ids : List String) :
    (externalStyle ids).map (fun s => Lines.statementLine s.text) = styleLines ids := by
  cases ids with
  | nil => rfl
  | cons id ids =>
    simp only [externalStyle, styleLines, List.isEmpty_cons, Bool.false_eq_true, if_false,
      reduceCtorEq, List.map_cons, List.map_nil]
    congr 2
    rw [← String.toList_inj]
    simp [Lines.statementLine, FlowStatement.text]

theorem map_statementLine_graph {graph : ModuleGraph}
    (h : ∀ e ∈ graph.edges, e.1 < graph.nodes.length ∧ e.2 < graph.nodes.length) :
    graph.diagram.statements.map (fun s => Lines.statementLine s.text) = graph.graphLines := by
  simp only [ModuleGraph.diagram, List.map_append, List.map_map, Function.comp_def,
    statementLine_node, statementLine_arrow, map_statementLine_externalStyle,
    ModuleGraph.graphLines, ModuleGraph.externalIds, ← map_nodePairs h]

theorem isOneLine_nodeLine {id label : String} (hid : IsOneLine id) (hlabel : IsOneLine label) :
    IsOneLine (nodeLine id label) := by
  simp only [nodeLine, isOneLine_append]
  exact ⟨⟨⟨⟨by decide, hid⟩, by decide⟩, hlabel⟩, by decide⟩

theorem isOneLine_of_mem_styleLines {ids : List String} (h : ∀ id ∈ ids, IsOneLine id)
    {line : String} (hline : line ∈ styleLines ids) : IsOneLine line := by
  unfold styleLines at hline
  split at hline
  · cases hline
  · rcases List.mem_cons.1 hline with rfl | hline
    · decide
    · rw [List.mem_singleton.1 hline, isOneLine_append, isOneLine_append]
      exact ⟨⟨by decide, isOneLine_intercalate (by decide) h⟩, by decide⟩

/-- The positions of an edge are those of nodes. -/
theorem edge_lt {manifest : Manifest} {e : Nat × Nat} (h : e ∈ (build manifest).edges) :
    e.1 < (build manifest).nodes.length ∧ e.2 < (build manifest).nodes.length :=
  ⟨source_lt_length_nodes h, target_lt h⟩

section

variable {manifest : Manifest}

theorem isNodeName_of_mem {name : String}
    (h : name ∈ (build manifest).nodes.map DependencyNode.nodeId) : IsNodeName name := by
  obtain ⟨node, _, rfl⟩ := List.mem_map.1 h
  exact isNodeName_nodeId node

/-- Both ends of an edge are names of nodes. -/
theorem mem_of_mem_edgeIds {e : String × String} (h : e ∈ (build manifest).edgeIds) :
    e.1 ∈ (build manifest).nodes.map DependencyNode.nodeId ∧
      e.2 ∈ (build manifest).nodes.map DependencyNode.nodeId := by
  obtain ⟨positions, hmem, rfl⟩ := List.mem_map.1 h
  obtain ⟨hsource, htarget⟩ := edge_lt hmem
  exact ⟨idAt_mem hsource, idAt_mem htarget⟩

theorem externalIds_subset (graph : ModuleGraph) :
    graph.externalIds ⊆ graph.nodes.map DependencyNode.nodeId :=
  List.map_subset _ (List.filter_subset_self _)

theorem isNodeName_of_mem_externalIds {name : String} (h : name ∈ (build manifest).externalIds) :
    IsNodeName name :=
  isNodeName_of_mem (externalIds_subset _ h)

theorem isOneLine_of_mem_graphLines {line : String} (h : line ∈ (build manifest).graphLines) :
    IsOneLine line := by
  simp only [ModuleGraph.graphLines, List.mem_append, List.mem_map] at h
  rcases h with (⟨node, _, rfl⟩ | ⟨e, he, rfl⟩) | h
  · exact isOneLine_nodeLine (isNodeName_nodeId node).isOneLine (isOneLine_escapeLabel _)
  · obtain ⟨hsource, htarget⟩ := mem_of_mem_edgeIds he
    exact isOneLine_arrowLine (isNodeName_of_mem hsource).isOneLine
      (isNodeName_of_mem htarget).isOneLine
  · exact isOneLine_of_mem_styleLines
      (fun _ hid => (isNodeName_of_mem_externalIds hid).isOneLine) h

end

theorem splitLines_dependencyDiagram (manifest : Manifest) :
    splitLines (dependencyDiagram manifest) =
      "flowchart LR" :: (build manifest).graphLines ++ [""] := by
  have hlines : ((build manifest).diagram.statements.map FlowStatement.text).map
      Lines.statementLine = (build manifest).graphLines := by
    rw [List.map_map, ← map_statementLine_graph fun _ he => edge_lt he]
    rfl
  have hheader : (build manifest).diagram.direction.header = "flowchart LR" := rfl
  rw [dependencyDiagram, FlowDiagram.text, hheader, splitLines_statements (by decide), hlines]
  · rw [hlines]
    exact fun _ hline => isOneLine_of_mem_graphLines hline

/-! ## Reading back -/

/-- The statement of an indented line: the identifier at its front, and what follows it. -/
def readStatement? (line : String) : Option (List Char × List Char) :=
  match line.toList with
  | ' ' :: ' ' :: ' ' :: ' ' :: statement =>
    some (statement.takeWhile isNodeChar, statement.dropWhile isNodeChar)
  | _ => none

/-- The identifier that a line declares.  The label that follows it ends at the next double quote,
and the line with it. -/
def readNode? (line : String) : Option String :=
  match readStatement? line with
  | some (id, '[' :: '"' :: label) =>
    if label.dropWhile (· ≠ '"') = ['"', ']'] then some (String.ofList id) else none
  | _ => none

/-- The identifiers that the arrow on a line joins. -/
def readArrow? (line : String) : Option (String × String) :=
  match readStatement? line with
  | some (source, ' ' :: '-' :: '-' :: '>' :: ' ' :: target) =>
    if target.all isNodeChar then some (String.ofList source, String.ofList target) else none
  | _ => none

/-- An identifier ends where a character follows that it cannot hold. -/
theorem readStatement?_eq {id : String} (hid : ∀ c ∈ id.toList, isNodeChar c = true) {c : Char}
    (hc : isNodeChar c = false) {line : String} {rest : List Char}
    (hline : line.toList = "    ".toList ++ id.toList ++ c :: rest) :
    readStatement? line = some (id.toList, c :: rest) := by
  have hsplit : line.toList = ' ' :: ' ' :: ' ' :: ' ' :: (id.toList ++ c :: rest) := by
    simpa using hline
  rw [readStatement?, hsplit]
  simp only [List.takeWhile_append_of_pos hid, List.dropWhile_append_of_pos hid]
  simp [hc]

section

variable {name : String}

theorem readStatement?_nodeLine (hname : IsNodeName name) (label : String) :
    readStatement? (nodeLine name label) =
      some (name.toList, '[' :: '"' :: (label.toList ++ ['"', ']'])) :=
  readStatement?_eq (fun _ hc => hname.isNodeChar hc) (by decide) (by simp [nodeLine])

theorem readStatement?_arrowLine (hname : IsNodeName name) (target : String) :
    readStatement? (arrowLine name target) =
      some (name.toList, ' ' :: '-' :: '-' :: '>' :: ' ' :: target.toList) :=
  readStatement?_eq (fun _ hc => hname.isNodeChar hc) (by decide) (by simp [arrowLine])

theorem readNode?_nodeLine (hname : IsNodeName name) {label : String}
    (hlabel : '"' ∉ label.toList) : readNode? (nodeLine name label) = some name := by
  have hquotes : ∀ c ∈ label.toList, decide (c ≠ '"') = true := by
    intro c hc
    rw [decide_eq_true_eq]
    intro heq
    exact hlabel (heq ▸ hc)
  simp only [readNode?, readStatement?_nodeLine hname, List.dropWhile_append_of_pos hquotes]
  simp

theorem readArrow?_nodeLine (hname : IsNodeName name) (label : String) :
    readArrow? (nodeLine name label) = none := by
  rw [readArrow?, readStatement?_nodeLine hname]
  rfl

theorem readArrow?_arrowLine (hname : IsNodeName name) {target : String}
    (htarget : IsNodeName target) : readArrow? (arrowLine name target) = some (name, target) := by
  have hall : target.toList.all isNodeChar = true :=
    List.all_eq_true.2 fun _ hc => htarget.isNodeChar hc
  simp only [readArrow?, readStatement?_arrowLine hname, hall, if_true, String.ofList_toList]

theorem readNode?_arrowLine (hname : IsNodeName name) (target : String) :
    readNode? (arrowLine name target) = none := by
  rw [readNode?, readStatement?_arrowLine hname]
  rfl

end

theorem IsNodeName.exists_head {name : String} (h : IsNodeName name) :
    ∃ c rest, name.toList = c :: rest ∧ c ≠ '-' := by
  obtain ⟨tag, word, htag, _, rfl⟩ := h
  rcases htag with rfl | rfl
  · exact ⟨'m', _, by rw [String.toList_append]; rfl, by decide⟩
  · exact ⟨'e', _, by rw [String.toList_append]; rfl, by decide⟩

theorem readStatement?_classLine (ids : String) :
    readStatement? ("    class " ++ ids ++ " external") =
      some ("class".toList, ' ' :: (ids.toList ++ " external".toList)) :=
  readStatement?_eq (List.all_eq_true.1 (by decide)) (by decide) (by simp)

/-- The lines of a style are read as neither a node nor an arrow. -/
theorem read_styleLines {ids : List String} (hids : ∀ id ∈ ids, IsNodeName id) {line : String}
    (h : line ∈ styleLines ids) : readNode? line = none ∧ readArrow? line = none := by
  cases ids with
  | nil => cases h
  | cons id ids =>
    rcases List.mem_cons.1 h with rfl | h
    · decide
    · obtain ⟨c, rest, hhead, hc⟩ := (hids id List.mem_cons_self).exists_head
      obtain ⟨more, hjoined⟩ : ∃ more, (",".intercalate (id :: ids)).toList = c :: more := by
        rw [String.toList_intercalate, List.map_cons, hhead]
        cases ids with
        | nil => simp
        | cons second ids => simp
      rw [List.mem_singleton.1 h, readNode?, readArrow?, readStatement?_classLine, hjoined]
      refine ⟨rfl, ?_⟩
      split
      · rename_i heq
        simp only [List.cons_append, Option.some.injEq, Prod.mk.injEq, List.cons.injEq] at heq
        exact absurd heq.2.2.1 hc
      · rfl

/-- Between the header and the style of a text there is nothing but nodes and arrows. -/
theorem filterMap_splitLines {β : Type} {read : String → Option β} (manifest : Manifest)
    (hheader : read "flowchart LR" = none) (hlast : read "" = none)
    (hstyle : ∀ line ∈ styleLines (build manifest).externalIds, read line = none) :
    (splitLines (dependencyDiagram manifest)).filterMap read =
      (build manifest).nodes.filterMap
          (fun node => read (nodeLine node.nodeId (escapeLabel node.label))) ++
        (build manifest).edgeIds.filterMap (fun e => read (arrowLine e.1 e.2)) := by
  have hnone : (styleLines (build manifest).externalIds).filterMap read = [] :=
    List.filterMap_eq_nil_iff.2 hstyle
  simp only [splitLines_dependencyDiagram, ModuleGraph.graphLines, List.cons_append,
    List.filterMap_cons_none hheader, List.filterMap_append, hnone,
    List.filterMap_cons_none hlast, List.filterMap_nil, List.append_nil, List.filterMap_map,
    Function.comp_def]

/-- The node lines of a text give back the names of the nodes. -/
theorem filterMap_readNode? (manifest : Manifest) :
    (splitLines (dependencyDiagram manifest)).filterMap readNode? =
      (build manifest).nodes.map DependencyNode.nodeId := by
  have hnode : ∀ node : DependencyNode,
      readNode? (nodeLine node.nodeId (escapeLabel node.label)) = some node.nodeId := fun node =>
    readNode?_nodeLine (isNodeName_nodeId node) (quote_notMem_escapeLabel _)
  have harrows : (build manifest).edgeIds.filterMap (fun e => readNode? (arrowLine e.1 e.2)) =
      [] := List.filterMap_eq_nil_iff.2 fun e he =>
    readNode?_arrowLine (isNodeName_of_mem (mem_of_mem_edgeIds he).1) e.2
  rw [filterMap_splitLines manifest (by decide) (by decide)
    fun _ hline => (read_styleLines (fun _ => isNodeName_of_mem_externalIds) hline).1, harrows]
  simp [hnode]

/-- The arrow lines of a text give back the edges. -/
theorem filterMap_readArrow? (manifest : Manifest) :
    (splitLines (dependencyDiagram manifest)).filterMap readArrow? =
      (build manifest).edgeIds := by
  have hnodes : (build manifest).nodes.filterMap
      (fun node => readArrow? (nodeLine node.nodeId (escapeLabel node.label))) = [] :=
    List.filterMap_eq_nil_iff.2 fun node _ => readArrow?_nodeLine (isNodeName_nodeId node) _
  have harrow : ∀ e ∈ (build manifest).edgeIds, readArrow? (arrowLine e.1 e.2) = some e := by
    intro e he
    obtain ⟨hsource, htarget⟩ := mem_of_mem_edgeIds he
    exact readArrow?_arrowLine (isNodeName_of_mem hsource) (isNodeName_of_mem htarget)
  rw [filterMap_splitLines manifest (by decide) (by decide)
    fun _ hline => (read_styleLines (fun _ => isNodeName_of_mem_externalIds) hline).2, hnodes,
    List.nil_append, List.filterMap_congr harrow]
  simp

/-! ## The diagram against the graph -/

/-- What a diagram shows can be read off it again: its lines are those of the nodes, the edges and
the style, and no text inside a line ends the line, its label or its identifier early.  Whatever
an edge or a style names is the name of a node, and no module shares its name with an external
node. -/
theorem dependencyDiagram_shows_graph (manifest : Manifest) :
    splitLines (dependencyDiagram manifest) =
      "flowchart LR" :: (build manifest).graphLines ++ [""] ∧
    (∀ node ∈ (build manifest).nodes, IsNodeName node.nodeId ∧
      '"' ∉ (escapeLabel node.label).toList ∧ IsOneLine (escapeLabel node.label)) ∧
    (∀ e ∈ (build manifest).edgeIds,
      e.1 ∈ (build manifest).nodes.map DependencyNode.nodeId ∧
        e.2 ∈ (build manifest).nodes.map DependencyNode.nodeId) ∧
    (build manifest).externalIds ⊆ (build manifest).nodes.map DependencyNode.nodeId ∧
    (∀ node ∈ (build manifest).nodes, ∀ other ∈ (build manifest).nodes,
      node.isExternal ≠ other.isExternal → node.nodeId ≠ other.nodeId) ∧
    (splitLines (dependencyDiagram manifest)).filterMap readNode? =
      (build manifest).nodes.map DependencyNode.nodeId ∧
    (splitLines (dependencyDiagram manifest)).filterMap readArrow? = (build manifest).edgeIds := by
  refine ⟨splitLines_dependencyDiagram manifest, ?_, fun _ he => mem_of_mem_edgeIds he,
    externalIds_subset _, ?_, filterMap_readNode? manifest, filterMap_readArrow? manifest⟩
  · intro node _
    exact ⟨isNodeName_nodeId node, quote_notMem_escapeLabel _, isOneLine_escapeLabel _⟩
  · intro node _ other _ hkind
    exact nodeId_ne_of_isExternal_ne hkind

end ManifestAtlas
