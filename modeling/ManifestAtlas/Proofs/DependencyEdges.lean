import Mathlib
import ManifestAtlas.Proofs.DependencyCycles
import ManifestAtlas.Proofs.Occurrences

/-!
# The edges of a dependency graph

A dependency graph shows what the modules of a manifest declare, no more and no
less: `ModuleGraph.Represents` says so without the functions that build it, and
`build_represents_dependencies` shows it of every manifest, also of one that
has several modules with one identifier.

There are four groups.

* First mentions.  The repeats of a list can be dropped part by part, which
  gives the external nodes (`firstOccurrences_externals`).
* Mentions.  A mention is a module, given by its position, with one of its
  dependencies.  There is one edge for each mention, in the same order
  (`edgesFrom_eq_map`), and no two mentions give the same edge
  (`position_inj`).
* The graph as pairs of nodes (`nodePairs_build`).
* Building node by node.  A `GraphDraft` grows while the dependencies are gone
  through: it looks every one up in two tables, adds an external node where
  none is found, and leaves an edge out that is there already.  The invariant
  of that loop is `GraphDraft.Holds`; it shows that no edge is ever left out.
-/

namespace ManifestAtlas

open ModuleGraph (build dependenciesOf externalsOf position edgesFrom)

/-! ## First mentions -/

/-- A dependency that is not blank and names no module. -/
def IsUnknownIn (modules : List Module) (id : String) : Prop :=
  isBlankText id = false ∧ ∀ module ∈ modules, module.id ≠ id

theorem externalsOf_eq (modules : List Module) :
    externalsOf modules = distinct ((modules.flatMap (·.dependencies)).filter
      fun id => !isBlankText id && modules.all (·.id != id)) := by
  have hdependencies : modules.flatMap dependenciesOf =
      modules.flatMap fun module => distinct (module.dependencies.filter fun id =>
        !isBlankText id) := rfl
  rw [externalsOf, hdependencies, distinct_filter, distinct_flatMap, ← distinct_filter,
    ← List.filter_flatMap, List.filter_filter]
  simp only [Bool.and_comm]

/-- The external nodes are the unknown dependencies in the order of their first mention. -/
theorem firstOccurrences_externals (modules : List Module) :
    FirstOccurrences (modules.flatMap (·.dependencies)) (IsUnknownIn modules)
      (externalsOf modules) := by
  have hfirst := firstOccurrences_distinct_filter (modules.flatMap (·.dependencies))
    fun id => !isBlankText id && modules.all (·.id != id)
  rw [← externalsOf_eq] at hfirst
  show FirstOccurrences _ (fun id => isBlankText id = false ∧ ∀ module ∈ modules, module.id ≠ id) _
  simpa using hfirst

/-! ## One edge for each mention -/

/-- The dependencies of the modules that stand from position `start` on, each with the position of
the module that has it. -/
def mentionsFrom (start : Nat) (modules : List Module) : List (Nat × String) :=
  (modules.zipIdx start).flatMap fun (module, i) => (dependenciesOf module).map fun id => (i, id)

section

variable {modules : List Module} {externals : List String} {start : Nat}

theorem mentionsFrom_cons (module : Module) :
    mentionsFrom start (module :: modules) =
      (dependenciesOf module).map (fun id => (start, id)) ++ mentionsFrom (start + 1) modules := by
  rw [mentionsFrom, List.zipIdx_cons, List.flatMap_cons]
  rfl

theorem map_snd_mentionsFrom :
    (mentionsFrom start modules).map Prod.snd = modules.flatMap dependenciesOf := by
  induction modules generalizing start with
  | nil => rfl
  | cons module modules ih =>
    rw [mentionsFrom_cons, List.map_append, List.map_map, ih, List.flatMap_cons]
    simp [Function.comp_def]

/-- There is one edge for each mention, in the same order. -/
theorem edgesFrom_eq_map (target : String → Nat) :
    edgesFrom target start modules =
      (mentionsFrom start modules).map fun mention => (mention.1, target mention.2) := by
  induction modules generalizing start with
  | nil => rfl
  | cons module modules ih =>
    rw [edgesFrom, mentionsFrom_cons, List.map_append, List.map_map, ih]
    rfl

theorem le_of_mem_mentionsFrom {mention : Nat × String}
    (h : mention ∈ mentionsFrom start modules) : start ≤ mention.1 := by
  obtain ⟨⟨module, i⟩, hi, hmention⟩ := List.mem_flatMap.1 h
  obtain ⟨id, _, rfl⟩ := List.mem_map.1 hmention
  exact List.le_snd_of_mem_zipIdx hi

/-- A module mentions each of its dependencies once. -/
theorem nodup_mentionsFrom : (mentionsFrom start modules).Nodup := by
  induction modules generalizing start with
  | nil => exact List.nodup_nil
  | cons module modules ih =>
    have hpair : Function.Injective fun id : String => (start, id) := fun _ _ h => by
      simpa using h
    rw [mentionsFrom_cons, List.nodup_append]
    refine ⟨(nodup_distinct _).map hpair, ih, ?_⟩
    intro mention hmention other hother heq
    obtain ⟨id, _, rfl⟩ := List.mem_map.1 hmention
    have hlater := le_of_mem_mentionsFrom hother
    rw [← heq] at hlater
    exact absurd hlater (Nat.not_succ_le_self start)

theorem position_of_unknown {id : String} (h : firstPosition? modules id = none) :
    position modules externals id = modules.length + externals.idxOf id := by
  rw [firstPosition?] at h
  rw [position, h]

/-- Different dependencies stand for different nodes. -/
theorem position_inj {a b : String} (ha : firstPosition? modules a = none → a ∈ externals)
    (h : position modules externals a = position modules externals b) : a = b := by
  cases hposa : firstPosition? modules a with
  | some i =>
    cases hposb : firstPosition? modules b with
    | some j =>
      rw [position_of_firstPosition? _ hposa, position_of_firstPosition? _ hposb] at h
      exact id_eq_of_firstPosition? hposa (h ▸ hposb)
    | none =>
      have hlt := lt_of_firstPosition? hposa
      rw [position_of_firstPosition? _ hposa, position_of_unknown hposb] at h
      omega
  | none =>
    cases hposb : firstPosition? modules b with
    | some j =>
      have hlt := lt_of_firstPosition? hposb
      rw [position_of_unknown hposa, position_of_firstPosition? _ hposb] at h
      omega
    | none =>
      rw [position_of_unknown hposa, position_of_unknown hposb] at h
      exact (List.idxOf_inj (ha hposa)).1 (Nat.add_left_cancel h)

theorem firstPosition?_eq_none {id : String} :
    firstPosition? modules id = none ↔ ∀ module ∈ modules, module.id ≠ id := by
  rw [firstPosition?, List.findIdx?_eq_none_iff]
  simp

theorem mem_externalsOf {id : String} :
    id ∈ externalsOf modules ↔
      id ∈ modules.flatMap dependenciesOf ∧ firstPosition? modules id = none := by
  rw [externalsOf, mem_distinct, List.mem_filter, firstPosition?_eq_none]
  simp

/-- No edge comes twice. -/
theorem nodup_edges : (ModuleGraph.ofModules modules).edges.Nodup := by
  show (edgesFrom _ 0 modules).Nodup
  rw [edgesFrom_eq_map]
  refine nodup_mentionsFrom.map_on ?_
  intro mention hmention other _ heq
  obtain ⟨hsource, htarget⟩ := Prod.mk.inj heq
  have hid : mention.2 ∈ (mentionsFrom 0 modules).map Prod.snd := List.mem_map_of_mem hmention
  rw [map_snd_mentionsFrom] at hid
  exact Prod.ext hsource (position_inj (fun hnone => mem_externalsOf.2 ⟨hid, hnone⟩) htarget)

theorem length_edges :
    (ModuleGraph.ofModules modules).edges.length =
      (modules.map fun module => (dependenciesOf module).length).sum := by
  show (edgesFrom _ 0 modules).length = _
  rw [edgesFrom_eq_map, List.length_map, ← List.length_map (f := Prod.snd),
    map_snd_mentionsFrom, List.length_flatMap]

end

/-! ## The nodes at the ends of an edge -/

/-- The node that a dependency stands for: the first module with the identifier, or else an
external node. -/
def Manifest.standsFor (manifest : Manifest) (id : String) : DependencyNode :=
  match manifest.module? id with
  | some module => .module module
  | none => .external id

/-- The position is that of the first module with the identifier, or of the external node with it
if there is no such module. -/
def ModuleGraph.LeadsTo (graph : ModuleGraph) (id : String) (j : Nat) : Prop :=
  firstPosition? graph.modules id = some j ∨
    firstPosition? graph.modules id = none ∧ graph.nodes[j]? = some (.external id)

section

variable {manifest : Manifest} {id : String}

theorem module?_eq_none (h : firstPosition? manifest.modules id = none) :
    manifest.module? id = none := by
  rw [Manifest.module?, List.find?_eq_none]
  simpa using firstPosition?_eq_none.1 h

theorem getElem?_nodes_external (hid : id ∈ (build manifest).externals) :
    (build manifest).nodes[manifest.modules.length + (build manifest).externals.idxOf id]? =
      some (.external id) := by
  have hlength : (manifest.modules.map DependencyNode.module).length = manifest.modules.length :=
    List.length_map _
  show (manifest.modules.map DependencyNode.module ++ _)[_]? = _
  rw [List.getElem?_append_right (by rw [hlength]; exact Nat.le_add_right _ _), hlength,
    Nat.add_sub_cancel_left, List.getElem?_map, List.getElem?_idxOf hid]
  rfl

theorem leadsTo_position (hid : id ∈ manifest.modules.flatMap dependenciesOf) :
    (build manifest).LeadsTo id (position manifest.modules (build manifest).externals id) := by
  cases hpos : firstPosition? manifest.modules id with
  | some i =>
    rw [position_of_firstPosition? _ hpos]
    exact .inl hpos
  | none =>
    rw [position_of_unknown hpos]
    exact .inr ⟨hpos, getElem?_nodes_external (mem_externalsOf.2 ⟨hid, hpos⟩)⟩

theorem ModuleGraph.LeadsTo.getElem?_nodes {j : Nat} (h : (build manifest).LeadsTo id j) :
    (build manifest).nodes[j]? = some (manifest.standsFor id) := by
  rw [Manifest.standsFor]
  rcases h with hpos | ⟨hpos, hnode⟩
  · obtain ⟨module, hmodule, _⟩ := firstPosition?_eq_some.1 hpos
    rw [module?_eq_some.2 ⟨j, hpos, hmodule⟩, getElem?_nodes_build hmodule]
  · rw [module?_eq_none hpos, hnode]

/-- Seen as pairs of nodes, the edges join every module to what its dependencies stand for. -/
theorem nodePairs_build (manifest : Manifest) :
    (build manifest).nodePairs = manifest.modules.flatMap fun module =>
      (dependenciesOf module).map fun id => (.module module, manifest.standsFor id) := by
  have hedges : (build manifest).edges =
      (mentionsFrom 0 manifest.modules).map fun mention =>
        (mention.1, position manifest.modules (build manifest).externals mention.2) :=
    edgesFrom_eq_map _
  simp only [ModuleGraph.nodePairs, List.getElem?_toArray, hedges, List.filterMap_map,
    mentionsFrom, List.filterMap_flatMap]
  -- Both ends of an edge are positions of nodes, so that no pair is dropped.
  have hpairs : ∀ entry ∈ manifest.modules.zipIdx,
      (dependenciesOf entry.1).filterMap (fun id => do
        some (← (build manifest).nodes[entry.2]?,
          ← (build manifest).nodes[position manifest.modules (build manifest).externals id]?)) =
      (dependenciesOf entry.1).map fun id =>
        (DependencyNode.module entry.1, manifest.standsFor id) := by
    intro entry hentry
    have hmodule : manifest.modules[entry.2]? = some entry.1 :=
      List.mk_mem_zipIdx_iff_getElem?.1 hentry
    rw [← List.filterMap_eq_map]
    refine List.filterMap_congr fun id hid => ?_
    have hmention := List.mem_flatMap.2 ⟨_, List.mem_of_getElem? hmodule, hid⟩
    simp [getElem?_nodes_build hmodule, (leadsTo_position hmention).getElem?_nodes]
  have hmodules : manifest.modules = manifest.modules.zipIdx.map Prod.fst := by simp
  conv_rhs => rw [hmodules, List.flatMap_map]
  exact List.flatMap_congr hpairs

end

/-! ## Building node by node -/

/-- A graph that is still being built: the nodes and edges so far, and two tables that say where
the first module with an identifier and the external nodes stand. -/
structure GraphDraft where
  nodes : List DependencyNode
  firsts : Std.HashMap String Nat
  externals : Std.HashMap String Nat
  edges : List (Nat × Nat)

namespace GraphDraft

/-- Adds the node of a module.  An identifier that is known already keeps its place. -/
def addModule (draft : GraphDraft) (module : Module) : GraphDraft :=
  { draft with
    nodes := draft.nodes ++ [.module module]
    firsts := draft.firsts.insertIfNew module.id draft.nodes.length }

/-- Adds an external node. -/
def addExternal (draft : GraphDraft) (id : String) : GraphDraft :=
  { draft with
    nodes := draft.nodes ++ [.external id]
    externals := draft.externals.insert id draft.nodes.length }

/-- The position of the node that a dependency stands for, and the draft with that node. -/
def resolve (draft : GraphDraft) (id : String) : Nat × GraphDraft :=
  match draft.firsts[id]? with
  | some i => (i, draft)
  | none =>
    match draft.externals[id]? with
    | some i => (i, draft)
    | none => (draft.nodes.length, draft.addExternal id)

/-- Adds an edge, unless it is there already. -/
def connect (draft : GraphDraft) (i j : Nat) : GraphDraft :=
  if (i, j) ∈ draft.edges then draft else { draft with edges := draft.edges ++ [(i, j)] }

/-- Adds the edge from a position to what a dependency stands for. -/
def addDependency (i : Nat) (draft : GraphDraft) (id : String) : GraphDraft :=
  (draft.resolve id).2.connect i (draft.resolve id).1

/-- The nodes of all modules, without edges. -/
def ofNodes (modules : List Module) : GraphDraft :=
  modules.foldl addModule ⟨[], ∅, ∅, []⟩

/-- The whole graph: the nodes of all modules first, then the dependencies of one module after the
other. -/
def ofModules (modules : List Module) : GraphDraft :=
  modules.zipIdx.foldl
    (fun draft (module, i) => (dependenciesOf module).foldl (addDependency i) draft)
    (ofNodes modules)

/-- What the loop keeps: the nodes are those of the modules and of the external dependencies so
far, and both tables say where they stand. -/
structure Indexed (draft : GraphDraft) (modules : List Module) (externals : List String) :
    Prop where
  nodes : draft.nodes = modules.map .module ++ externals.map .external
  firsts : ∀ id, draft.firsts[id]? = firstPosition? modules id
  externals : ∀ id, draft.externals[id]? =
    if id ∈ externals then some (modules.length + externals.idxOf id) else none

/-- The external nodes with one more dependency gone through. -/
def externalsWith (modules : List Module) (externals : List String) (id : String) : List String :=
  if firstPosition? modules id = none ∧ id ∉ externals then externals ++ [id] else externals

section

variable {draft : GraphDraft} {modules : List Module} {externals : List String} {id : String}

theorem firstPosition?_concat (modules : List Module) (module : Module) (id : String) :
    firstPosition? (modules ++ [module]) id =
      (firstPosition? modules id).or (if module.id = id then some modules.length else none) := by
  rw [firstPosition?, List.findIdx?_append]
  by_cases hid : module.id = id
  · simp [hid, firstPosition?]
  · simp [hid, firstPosition?]

/-- The tables grow with the nodes of the modules. -/
theorem Indexed.addModule (h : draft.Indexed modules []) (module : Module) :
    (draft.addModule module).Indexed (modules ++ [module]) [] where
  nodes := by simp [GraphDraft.addModule, h.nodes]
  firsts id := by
    have hlength : draft.nodes.length = modules.length := by simp [h.nodes]
    have hmem : module.id ∈ draft.firsts ↔ firstPosition? modules module.id ≠ none := by
      rw [Std.HashMap.mem_iff_isSome_getElem?, h.firsts, Option.isSome_iff_ne_none]
    simp only [GraphDraft.addModule, Std.HashMap.getElem?_insertIfNew, hmem, h.firsts, hlength,
      firstPosition?_concat, beq_iff_eq]
    by_cases hid : module.id = id
    · subst hid
      cases hpos : firstPosition? modules module.id with
      | some i => simp
      | none => simp
    · simp [hid]
  externals id := by simpa [GraphDraft.addModule] using h.externals id

private theorem indexed_foldl_addModule (rest : List Module) (h : draft.Indexed modules []) :
    (rest.foldl GraphDraft.addModule draft).Indexed (modules ++ rest) [] ∧
      (rest.foldl GraphDraft.addModule draft).edges = draft.edges := by
  induction rest generalizing draft modules with
  | nil => exact ⟨by simpa using h, rfl⟩
  | cons module rest ih =>
    obtain ⟨hindexed, hedges⟩ := ih (h.addModule module)
    exact ⟨by simpa using hindexed, hedges⟩

/-- The nodes of the modules are there before the first edge is. -/
theorem indexed_ofNodes (modules : List Module) :
    (ofNodes modules).Indexed modules [] ∧ (ofNodes modules).edges = [] := by
  have hempty : (⟨[], ∅, ∅, []⟩ : GraphDraft).Indexed [] [] :=
    ⟨rfl, by simp [firstPosition?], by simp⟩
  exact indexed_foldl_addModule modules hempty

/-- A dependency is looked up, or gets a node of its own behind all others. -/
theorem Indexed.resolve (h : draft.Indexed modules externals) (id : String) :
    (draft.resolve id).1 = position modules (externalsWith modules externals id) id ∧
      (draft.resolve id).2.Indexed modules (externalsWith modules externals id) ∧
      (draft.resolve id).2.edges = draft.edges := by
  have hlength : draft.nodes.length = modules.length + externals.length := by simp [h.nodes]
  rw [GraphDraft.resolve, h.firsts]
  -- A module, an external node that is there, or a new one.
  cases hpos : firstPosition? modules id with
  | some i =>
    have hsame : externalsWith modules externals id = externals :=
      if_neg fun hnew => absurd (hpos.symm.trans hnew.1) (Option.some_ne_none i)
    rw [hsame]
    exact ⟨(position_of_firstPosition? _ hpos).symm, h, rfl⟩
  | none =>
    rw [h.externals]
    by_cases hid : id ∈ externals
    · have hsame : externalsWith modules externals id = externals := if_neg fun hnew => hnew.2 hid
      rw [hsame, if_pos hid]
      exact ⟨(position_of_unknown hpos).symm, h, rfl⟩
    · have hnew : externalsWith modules externals id = externals ++ [id] := if_pos ⟨hpos, hid⟩
      rw [hnew, if_neg hid]
      refine ⟨?_, ⟨?_, h.firsts, ?_⟩, rfl⟩
      · rw [position_of_unknown hpos, List.idxOf_append_of_notMem hid]
        simpa using hlength
      · simp [GraphDraft.addExternal, h.nodes]
      · intro other
        rw [GraphDraft.addExternal, Std.HashMap.getElem?_insert, h.externals, hlength]
        by_cases hother : id = other
        · subst hother
          simp [List.idxOf_append_of_notMem hid]
        · by_cases hmem : other ∈ externals
          · simp [hother, hmem, List.idxOf_append_of_mem hmem]
          · simp [hother, hmem, Ne.symm hother]

/-- What the loop keeps: there is one edge for each mention so far, and every dependency so far
has a node. -/
structure Holds (draft : GraphDraft) (modules : List Module) (mentions : List (Nat × String))
    (externals : List String) : Prop where
  indexed : draft.Indexed modules externals
  known : ∀ mention ∈ mentions, firstPosition? modules mention.2 = none → mention.2 ∈ externals
  edges : draft.edges =
    mentions.map fun mention => (mention.1, position modules externals mention.2)

theorem mem_externalsWith_of_mem {other : String} (h : other ∈ externals) :
    other ∈ externalsWith modules externals id := by
  rw [externalsWith]
  split
  · exact List.mem_append_left _ h
  · exact h

theorem mem_externalsWith_self (h : firstPosition? modules id = none) :
    id ∈ externalsWith modules externals id := by
  rw [externalsWith]
  by_cases hid : id ∈ externals
  · rwa [if_neg fun hnew => hnew.2 hid]
  · rw [if_pos ⟨h, hid⟩]
    exact List.mem_concat_self

/-- The nodes that are there keep their places. -/
theorem position_externalsWith {other : String}
    (h : firstPosition? modules other = none → other ∈ externals) :
    position modules (externalsWith modules externals id) other =
      position modules externals other := by
  cases hpos : firstPosition? modules other with
  | some i => rw [position_of_firstPosition? _ hpos, position_of_firstPosition? _ hpos]
  | none =>
    rw [position_of_unknown hpos, position_of_unknown hpos, externalsWith]
    split
    · rw [List.idxOf_append_of_mem (h hpos)]
    · rfl

theorem Indexed.connect (h : draft.Indexed modules externals) (i j : Nat) :
    (draft.connect i j).Indexed modules externals := by
  rw [GraphDraft.connect]
  split
  · exact h
  · exact ⟨h.nodes, h.firsts, h.externals⟩

/-- A new mention gives a new edge: the guard against repeated edges lets it through. -/
theorem Holds.addDependency {mentions : List (Nat × String)} {i : Nat}
    (h : draft.Holds modules mentions externals) (hnew : (i, id) ∉ mentions) :
    (draft.addDependency i id).Holds modules (mentions ++ [(i, id)])
      (externalsWith modules externals id) := by
  obtain ⟨htarget, hindexed, hedges⟩ := h.indexed.resolve id
  have hold : (draft.resolve id).2.edges = mentions.map fun mention =>
      (mention.1, position modules (externalsWith modules externals id) mention.2) := by
    rw [hedges, h.edges]
    refine List.map_congr_left fun mention hmention => ?_
    rw [position_externalsWith (h.known mention hmention)]
  -- Different identifiers have different nodes, so that an edge tells its mention.
  have hfresh : (i, (draft.resolve id).1) ∉ (draft.resolve id).2.edges := by
    intro hmem
    rw [hold, htarget] at hmem
    obtain ⟨mention, hmention, heq⟩ := List.mem_map.1 hmem
    obtain ⟨hsource, hsame⟩ := Prod.mk.inj heq
    have hid : mention.2 = id :=
      position_inj (fun hnone => mem_externalsWith_of_mem (h.known mention hmention hnone)) hsame
    exact hnew (hsource ▸ hid ▸ hmention)
  refine ⟨hindexed.connect i _, ?_, ?_⟩
  · intro mention hmention hnone
    rcases List.mem_append.1 hmention with hmention | hmention
    · exact mem_externalsWith_of_mem (h.known mention hmention hnone)
    · rw [List.mem_singleton.1 hmention] at hnone ⊢
      exact mem_externalsWith_self hnone
  · rw [GraphDraft.addDependency, GraphDraft.connect, if_neg hfresh, List.map_append, hold,
      htarget]
    rfl

/-- The loop over all mentions. -/
theorem Holds.foldl {mentions : List (Nat × String)} (rest : List (Nat × String))
    (h : draft.Holds modules mentions externals) (hnodup : (mentions ++ rest).Nodup) :
    (rest.foldl (fun draft mention => draft.addDependency mention.1 mention.2) draft).Holds
      modules (mentions ++ rest)
      ((rest.map Prod.snd).foldl (externalsWith modules) externals) := by
  induction rest generalizing draft mentions externals with
  | nil => simpa using h
  | cons mention rest ih =>
    have hnew : mention ∉ mentions := fun hmem =>
      (List.nodup_append.1 hnodup).2.2 mention hmem mention List.mem_cons_self rfl
    have hrest := ih (h.addDependency hnew) (by simpa using hnodup)
    simpa using hrest

/-- Gone through in order, the dependencies leave the unknown ones, each once. -/
theorem foldl_externalsWith {unknown : String → Bool}
    (hunknown : ∀ id, unknown id = true ↔ firstPosition? modules id = none) (ids : List String) :
    ids.foldl (externalsWith modules) [] = distinct (ids.filter unknown) := by
  induction ids using List.reverseRecOn with
  | nil => rfl
  | append_singleton ids id ih =>
    rw [List.foldl_append, ih, List.filter_append, List.foldl_cons, List.foldl_nil,
      externalsWith]
    by_cases hpos : firstPosition? modules id = none
    · rw [List.filter_cons_of_pos ((hunknown id).2 hpos), List.filter_nil, distinct_concat]
      simp only [hpos, mem_distinct, true_and, ite_not]
    · rw [if_neg fun hnew => hpos hnew.1,
        List.filter_cons_of_neg fun h => hpos ((hunknown id).1 h), List.filter_nil,
        List.append_nil]

/-- Node by node and edge by edge, the loop builds the graph. -/
theorem ofModules_spec (modules : List Module) :
    (ofModules modules).nodes = (ModuleGraph.ofModules modules).nodes ∧
      (ofModules modules).edges = (ModuleGraph.ofModules modules).edges := by
  have hstart : (ofNodes modules).Holds modules [] [] :=
    ⟨(indexed_ofNodes modules).1, by simp, (indexed_ofNodes modules).2⟩
  have hloop : ofModules modules = (mentionsFrom 0 modules).foldl
      (fun draft mention => draft.addDependency mention.1 mention.2) (ofNodes modules) := by
    rw [ofModules, mentionsFrom, List.foldl_flatMap]
    simp only [List.foldl_map]
  have hunknown : ∀ id, modules.all (·.id != id) = true ↔ firstPosition? modules id = none :=
    fun id => by simp [firstPosition?_eq_none]
  have hend := hstart.foldl (mentionsFrom 0 modules) (by simpa using nodup_mentionsFrom)
  rw [← hloop, map_snd_mentionsFrom, foldl_externalsWith hunknown] at hend
  refine ⟨hend.indexed.nodes, ?_⟩
  show _ = edgesFrom _ 0 modules
  rw [edgesFrom_eq_map, hend.edges]
  rfl

end

end GraphDraft

/-! ## What a graph represents -/

/-- A graph shows the dependencies that the modules of a manifest declare.  Its nodes are the
modules and, each once and in the order of their first mention, the dependencies that name none of
them.  There is one edge for each module and each of its dependencies, which leads to the first
module with that identifier or else to the external node, and no other one. -/
structure ModuleGraph.Represents (graph : ModuleGraph) (manifest : Manifest) : Prop where
  nodes : graph.nodes = manifest.modules.map .module ++ graph.externals.map .external
  externals : FirstOccurrences (manifest.modules.flatMap (·.dependencies))
    (IsUnknownIn manifest.modules) graph.externals
  edges : ∃ target : String → Nat,
    (∀ module ∈ manifest.modules, ∀ id ∈ distinctVisible module.dependencies,
      graph.LeadsTo id (target id)) ∧
    graph.edges = manifest.modules.zipIdx.flatMap fun (module, i) =>
      (distinctVisible module.dependencies).map fun id => (i, target id)
  nodePairs : graph.nodePairs = manifest.modules.flatMap fun module =>
    (distinctVisible module.dependencies).map fun id => (.module module, manifest.standsFor id)
  nodup : graph.edges.Nodup
  length_edges : graph.edges.length =
    (manifest.modules.map fun module => (distinctVisible module.dependencies).length).sum

/-- The graph of a manifest represents its dependencies.  The loop that looks every dependency up
in two tables and refuses an edge that it has already builds the very same nodes and edges, so that
it never refuses one. -/
theorem build_represents_dependencies (manifest : Manifest) :
    (build manifest).Represents manifest ∧
      (GraphDraft.ofModules manifest.modules).nodes = (build manifest).nodes ∧
      (GraphDraft.ofModules manifest.modules).edges = (build manifest).edges := by
  refine ⟨⟨rfl, firstOccurrences_externals manifest.modules, ?_, nodePairs_build manifest,
    nodup_edges, length_edges⟩, GraphDraft.ofModules_spec manifest.modules⟩
  refine ⟨position manifest.modules (build manifest).externals, ?_, ?_⟩
  · intro module hmodule id hid
    exact leadsTo_position (List.mem_flatMap.2 ⟨module, hmodule, hid⟩)
  · have hedges : (build manifest).edges = (mentionsFrom 0 manifest.modules).map fun mention =>
        (mention.1, position manifest.modules (build manifest).externals mention.2) :=
      edgesFrom_eq_map _
    rw [hedges, mentionsFrom, List.map_flatMap]
    simp only [List.map_map]
    rfl

end ManifestAtlas
