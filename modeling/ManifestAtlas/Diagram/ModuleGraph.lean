import ManifestAtlas.Manifest.Project
import ManifestAtlas.Mermaid.NodeId
import ManifestAtlas.Text.Distinct

/-!
# The dependency graph of a manifest

The nodes are the modules in the order of the manifest, followed by the
dependencies that name no module, each once, in the order of their first
mention.  Edges run from a module to what it depends on, module by module and
in the order in which the dependencies are listed.  A dependency stands for the
first module with its identifier.

Main statement: every edge starts at a module (`ModuleGraph.source_lt`).
-/

namespace ManifestAtlas

/-- A node of the dependency graph. -/
inductive DependencyNode where
  | module (module : Module)
  | external (id : String)
  deriving DecidableEq, Repr

/-- The identifier of the manifest behind a node. -/
def DependencyNode.rawId : DependencyNode → String
  | .module m => m.id
  | .external id => id

/-- The tag of module nodes. -/
def moduleTag : String := "mod_"

/-- The tag of external nodes. -/
def externalTag : String := "ext_"

/-- The identifier of a node in the diagram. -/
def DependencyNode.nodeId : DependencyNode → String
  | .module m => ManifestAtlas.nodeId moduleTag m.id
  | .external id => ManifestAtlas.nodeId externalTag id

/-- Whether a node is external. -/
def DependencyNode.isExternal : DependencyNode → Bool
  | .module _ => false
  | .external _ => true

/-- A graph of modules and external dependencies; its edges are pairs of positions of nodes. -/
structure ModuleGraph where
  modules : List Module
  externals : List String
  edges : List (Nat × Nat)
  deriving DecidableEq, Repr

namespace ModuleGraph

/-- The nodes, in order. -/
def nodes (graph : ModuleGraph) : List DependencyNode :=
  graph.modules.map .module ++ graph.externals.map .external

/-- The dependencies of a module, each once and without blank ones. -/
def dependenciesOf (module : Module) : List String :=
  distinctVisible module.dependencies

/-- The dependencies that name no module, each once. -/
def externalsOf (modules : List Module) : List String :=
  distinct ((modules.flatMap dependenciesOf).filter fun d => modules.all (·.id != d))

/-- The position of the node that a dependency stands for. -/
def position (modules : List Module) (externals : List String) (dependency : String) : Nat :=
  match modules.findIdx? (·.id == dependency) with
  | some i => i
  | none => modules.length + externals.idxOf dependency

/-- The edges out of the modules from position `i` on. -/
def edgesFrom (target : String → Nat) : (i : Nat) → List Module → List (Nat × Nat)
  | _, [] => []
  | i, m :: ms => (dependenciesOf m).map (fun d => (i, target d)) ++ edgesFrom target (i + 1) ms

/-- The dependency graph of some modules. -/
def ofModules (modules : List Module) : ModuleGraph :=
  let externals := externalsOf modules
  { modules
    externals
    edges := edgesFrom (position modules externals) 0 modules }

/-- The dependency graph of a manifest. -/
def build (manifest : Manifest) : ModuleGraph :=
  ofModules manifest.modules

/-- The node at a position. -/
def node? (graph : ModuleGraph) (i : Nat) : Option DependencyNode :=
  graph.nodes[i]?

/-- The edges, as pairs of nodes. -/
def nodePairs (graph : ModuleGraph) : List (DependencyNode × DependencyNode) :=
  let nodes := graph.nodes.toArray
  graph.edges.filterMap fun (i, j) => do some (← nodes[i]?, ← nodes[j]?)

/-- The dependencies on unknown modules, each with the first module that has it. -/
def unknownDependencies (graph : ModuleGraph) : List (String × String) :=
  graph.externals.filterMap fun d =>
    (graph.modules.find? fun m => (dependenciesOf m).contains d).map fun m => (m.id, d)

theorem source_lt_of_mem_edgesFrom {target : String → Nat} {i : Nat} {ms : List Module}
    {e : Nat × Nat} (h : e ∈ edgesFrom target i ms) : i ≤ e.1 ∧ e.1 < i + ms.length := by
  induction ms generalizing i with
  | nil => simp [edgesFrom] at h
  | cons m ms ih =>
    rw [edgesFrom, List.mem_append] at h
    rcases h with h | h
    · obtain ⟨d, _, rfl⟩ := List.mem_map.1 h
      simp
    · have := ih h
      simp only [List.length_cons]
      omega

theorem source_lt {manifest : Manifest} {e : Nat × Nat} (h : e ∈ (build manifest).edges) :
    e.1 < manifest.modules.length := by
  simpa using (source_lt_of_mem_edgesFrom h).2

end ModuleGraph

end ManifestAtlas
