import Mathlib.Data.List.Basic
import ManifestAtlas.Proofs.Reachability

/-!
# Walks along dependencies

A dependency stands for the first module with its identifier.  A later module
with the same identifier keeps its own dependencies, but nothing leads to it;
an external node has no dependencies.  There are two groups.

* Positions (`firstPosition?`), the edges between them and the walks along
  these edges.  A walk starts at a module (`Walk.source_lt`), and where it ends
  at a module it ends at a first one (`Walk.target_first`).
* Identifiers.  `Manifest.DependsOn` speaks of the manifest alone, and
  `firstReaches_iff` shows that the graph has the same walks.
-/

namespace ManifestAtlas

open ModuleGraph (build)

/-! ## Edges and walks between first modules -/

theorem mem_dependenciesOf {module : Module} {id : String} :
    id ∈ ModuleGraph.dependenciesOf module ↔
      id ∈ module.dependencies ∧ isBlankText id = false :=
  mem_distinctVisible

/-- The position of the first module with an identifier. -/
def firstPosition? (modules : List Module) (id : String) : Option Nat :=
  modules.findIdx? (·.id == id)

/-- The first module with one identifier reaches the first module with another along one or more
edges of the graph. -/
def ModuleGraph.FirstReaches (graph : ModuleGraph) (a b : String) : Prop :=
  ∃ i j, firstPosition? graph.modules a = some i ∧ firstPosition? graph.modules b = some j ∧
    Walk graph.edges i j

section

variable {modules : List Module}

theorem firstPosition?_eq_some {id : String} {i : Nat} :
    firstPosition? modules id = some i ↔
      ∃ module, modules[i]? = some module ∧ module.id = id ∧
        ∀ j, j < i → ∀ other, modules[j]? = some other → other.id ≠ id := by
  rw [firstPosition?, List.findIdx?_eq_some_iff_getElem]
  constructor
  · intro h
    obtain ⟨hi, hid, hbefore⟩ := h
    refine ⟨modules[i], List.getElem?_eq_getElem hi, by simpa using hid, ?_⟩
    intro j hj other hother
    obtain ⟨_, rfl⟩ := List.getElem?_eq_some_iff.1 hother
    simpa using hbefore j hj
  · intro h
    obtain ⟨module, hmodule, hid, hbefore⟩ := h
    obtain ⟨hi, rfl⟩ := List.getElem?_eq_some_iff.1 hmodule
    refine ⟨hi, by simpa using hid, ?_⟩
    intro j hj
    have hlt : j < modules.length := by omega
    simpa using hbefore j hj modules[j] (List.getElem?_eq_getElem hlt)

theorem lt_of_firstPosition? {id : String} {i : Nat} (h : firstPosition? modules id = some i) :
    i < modules.length := by
  obtain ⟨module, hmodule, _⟩ := firstPosition?_eq_some.1 h
  exact (List.getElem?_eq_some_iff.1 hmodule).1

/-- A position is the first one of a single identifier. -/
theorem id_eq_of_firstPosition? {a b : String} {i : Nat} (ha : firstPosition? modules a = some i)
    (hb : firstPosition? modules b = some i) : a = b := by
  obtain ⟨module, hmodule, rfl, _⟩ := firstPosition?_eq_some.1 ha
  obtain ⟨other, hother, rfl, _⟩ := firstPosition?_eq_some.1 hb
  rw [hmodule] at hother
  rw [Option.some.inj hother]

theorem exists_firstPosition? {module : Module} (h : module ∈ modules) :
    ∃ i, firstPosition? modules module.id = some i := by
  cases hpos : firstPosition? modules module.id with
  | some i => exact ⟨i, rfl⟩
  | none =>
    rw [firstPosition?, List.findIdx?_eq_none_iff] at hpos
    simpa using hpos module h

/-- A dependency stands for a first module, or for a node behind all modules. -/
theorem position_eq (externals : List String) (id : String) :
    firstPosition? modules id = some (ModuleGraph.position modules externals id) ∨
      modules.length ≤ ModuleGraph.position modules externals id := by
  rw [ModuleGraph.position]
  split
  · rename_i i hi
    exact .inl hi
  · exact .inr (Nat.le_add_right _ _)

theorem position_of_firstPosition? (externals : List String) {id : String} {i : Nat}
    (h : firstPosition? modules id = some i) : ModuleGraph.position modules externals id = i := by
  rw [ModuleGraph.position]
  rw [firstPosition?] at h
  rw [h]

end

theorem mem_edgesFrom {target : String → Nat} {start : Nat} {modules : List Module}
    {e : Nat × Nat} :
    e ∈ ModuleGraph.edgesFrom target start modules ↔
      ∃ i module, modules[i]? = some module ∧
        ∃ id ∈ ModuleGraph.dependenciesOf module, e = (start + i, target id) := by
  induction modules generalizing start with
  | nil => simp [ModuleGraph.edgesFrom]
  | cons first modules ih =>
    rw [ModuleGraph.edgesFrom, List.mem_append, List.mem_map, ih]
    constructor
    · intro h
      rcases h with ⟨id, hid, rfl⟩ | ⟨i, module, hmodule, id, hid, rfl⟩
      · exact ⟨0, first, rfl, id, hid, rfl⟩
      · refine ⟨i + 1, module, hmodule, id, hid, ?_⟩
        rw [Nat.add_right_comm, Nat.add_assoc]
    · intro h
      obtain ⟨i, module, hmodule, id, hid, rfl⟩ := h
      cases i with
      | zero =>
        obtain rfl : first = module := by simpa using hmodule
        exact .inl ⟨id, hid, rfl⟩
      | succ i =>
        refine .inr ⟨i, module, by simpa using hmodule, id, hid, ?_⟩
        rw [Nat.add_right_comm, Nat.add_assoc]

section

variable {manifest : Manifest}

theorem mem_edges_build {i j : Nat} :
    (i, j) ∈ (build manifest).edges ↔
      ∃ module, manifest.modules[i]? = some module ∧
        ∃ id ∈ ModuleGraph.dependenciesOf module,
          ModuleGraph.position manifest.modules (build manifest).externals id = j := by
  rw [ModuleGraph.build, ModuleGraph.ofModules, mem_edgesFrom]
  constructor
  · intro h
    obtain ⟨k, module, hmodule, id, hid, he⟩ := h
    rw [Nat.zero_add] at he
    cases he
    exact ⟨module, hmodule, id, hid, rfl⟩
  · intro h
    obtain ⟨module, hmodule, id, hid, rfl⟩ := h
    exact ⟨i, module, hmodule, id, hid, by rw [Nat.zero_add]⟩

theorem length_nodes (graph : ModuleGraph) :
    graph.nodes.length = graph.modules.length + graph.externals.length := by
  simp [ModuleGraph.nodes]

/-- Every edge starts at a node. -/
theorem source_lt_length_nodes {e : Nat × Nat} (h : e ∈ (build manifest).edges) :
    e.1 < (build manifest).nodes.length := by
  have hlt : e.1 < (build manifest).modules.length := ModuleGraph.source_lt h
  rw [length_nodes]
  exact Nat.lt_add_right _ hlt

/-- A walk starts at a module. -/
theorem Walk.source_lt {i j : Nat} (h : Walk (build manifest).edges i j) :
    i < manifest.modules.length := by
  obtain ⟨k, hik, _⟩ := Relation.TransGen.head'_iff.1 h
  exact ModuleGraph.source_lt hik

/-- A walk that ends at a module ends at the first one with its identifier: no edge leads to a
later one. -/
theorem Walk.target_first {i j : Nat} (h : Walk (build manifest).edges i j)
    (hj : j < manifest.modules.length) :
    firstPosition? manifest.modules manifest.modules[j].id = some j := by
  obtain ⟨k, _, hkj⟩ := Relation.TransGen.tail'_iff.1 h
  obtain ⟨_, _, id, _, hpos⟩ := mem_edges_build.1 hkj
  rcases position_eq (build manifest).externals id with hfirst | hlater
  · rw [hpos] at hfirst
    obtain ⟨module, hmodule, hid, _⟩ := firstPosition?_eq_some.1 hfirst
    obtain ⟨_, rfl⟩ := List.getElem?_eq_some_iff.1 hmodule
    rw [hid]
    exact hfirst
  · omega

end

/-! ## Walks in terms of identifiers -/

/-- The first module with one identifier depends on some module with another. -/
def Manifest.DependsOn (manifest : Manifest) (a b : String) : Prop :=
  (∃ module, manifest.module? a = some module ∧ b ∈ module.dependencies ∧
    isBlankText b = false) ∧ ∃ module ∈ manifest.modules, module.id = b

section

variable {manifest : Manifest} {a b c : String}

theorem module?_eq_some {module : Module} :
    manifest.module? a = some module ↔
      ∃ i, firstPosition? manifest.modules a = some i ∧ manifest.modules[i]? = some module := by
  rw [Manifest.module?, List.find?_eq_bind_findIdx?_getElem?, Option.bind_eq_some_iff]
  rfl

theorem ModuleGraph.FirstReaches.trans (hab : (build manifest).FirstReaches a b)
    (hbc : (build manifest).FirstReaches b c) :
    (build manifest).FirstReaches a c := by
  obtain ⟨i, j, hi, hj, hij⟩ := hab
  obtain ⟨j', k, hj', hk, hjk⟩ := hbc
  obtain rfl : j = j' := Option.some.inj (hj.symm.trans hj')
  exact ⟨i, k, hi, hk, hij.trans hjk⟩

/-- A dependency between modules is an edge between the first modules. -/
theorem Manifest.DependsOn.firstReaches (h : manifest.DependsOn a b) :
    (build manifest).FirstReaches a b := by
  obtain ⟨⟨module, hmodule, hb, hblank⟩, target, htarget, rfl⟩ := h
  obtain ⟨i, hi, hget⟩ := module?_eq_some.1 hmodule
  obtain ⟨j, hj⟩ := exists_firstPosition? htarget
  refine ⟨i, j, hi, hj, .single (mem_edges_build.2 ⟨module, hget, target.id, ?_, ?_⟩)⟩
  · exact mem_dependenciesOf.2 ⟨hb, hblank⟩
  · exact position_of_firstPosition? _ hj

/-- An edge between first modules is a dependency. -/
theorem dependsOn_of_edge {i j : Nat} (hi : firstPosition? manifest.modules a = some i)
    (hj : firstPosition? manifest.modules b = some j)
    (h : (i, j) ∈ (build manifest).edges) : manifest.DependsOn a b := by
  obtain ⟨module, hmodule, id, hid, hpos⟩ := mem_edges_build.1 h
  have hb : id = b := by
    rcases position_eq (build manifest).externals id with hfirst | hlater
    · rw [hpos] at hfirst
      exact id_eq_of_firstPosition? hfirst hj
    · have hlt := lt_of_firstPosition? hj
      omega
  subst hb
  obtain ⟨hdep, hblank⟩ := mem_dependenciesOf.1 hid
  obtain ⟨target, htarget, htid, _⟩ := firstPosition?_eq_some.1 hj
  exact ⟨⟨module, module?_eq_some.2 ⟨i, hi, hmodule⟩, hdep, hblank⟩,
    target, List.mem_of_getElem? htarget, htid⟩

/-- The first modules reach each other along the graph as their identifiers do along the
dependencies: no walk between them passes an external node or a later module. -/
theorem firstReaches_iff :
    (build manifest).FirstReaches a b ↔
      Relation.TransGen manifest.DependsOn a b := by
  constructor
  · intro hreaches
    obtain ⟨i, j, hi, hj, hwalk⟩ := hreaches
    induction hwalk generalizing b with
    | single hij => exact .single (dependsOn_of_edge hi hj hij)
    | @tail k j hik hkj ih =>
      have hk : k < manifest.modules.length := ModuleGraph.source_lt hkj
      have hfirst := Walk.target_first hik hk
      exact (ih hfirst).tail (dependsOn_of_edge hfirst hj hkj)
  · intro h
    induction h with
    | single hab => exact hab.firstReaches
    | tail _ hbc ih => exact ih.trans hbc.firstReaches

end

end ManifestAtlas
