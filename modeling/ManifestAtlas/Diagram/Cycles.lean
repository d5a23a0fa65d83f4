import ManifestAtlas.Diagram.ModuleGraph

/-!
# Dependency cycles

The nodes of a graph fall into strongly connected components.  A component is a
cycle if it has several nodes, or one that depends on itself.  Each cycle is
listed with its identifiers in ascending order, and so are the cycles.

What lists the cycles is given the components, in any order.  Here they are
computed from what each position reaches.
-/

namespace ManifestAtlas

/-- The targets of the edges out of a position. -/
def successors (edges : List (Nat × Nat)) (i : Nat) : List Nat :=
  edges.filterMap fun e => if e.1 = i then some e.2 else none

/-- Adds everything that can be reached from the pending positions to the ones seen, taking at
most `fuel` positions from the pending ones. -/
def explore (edges : List (Nat × Nat)) : (fuel : Nat) → (pending seen : List Nat) → List Nat
  | 0, _, seen => seen
  | _ + 1, [], seen => seen
  | fuel + 1, i :: pending, seen =>
    if seen.contains i then explore edges fuel pending seen
    else explore edges fuel (successors edges i ++ pending) (i :: seen)

/-- The positions that can be reached along one or more edges.  Every edge puts a position among
the pending ones at most once besides the first ones, which bounds the search. -/
def reachable (edges : List (Nat × Nat)) (i : Nat) : List Nat :=
  explore edges (2 * edges.length + 1) (successors edges i) []

/-- The strongly connected components of the first `n` positions: each position stands in one of
them, together with every position that it reaches and that reaches it. -/
def strongComponents (edges : List (Nat × Nat)) (n : Nat) : List (List Nat) :=
  let reach := (Array.range n).map (reachable edges)
  let reaches (i j : Nat) : Bool := (reach.getD i []).contains j
  let positions := List.range n
  distinct (positions.map fun i => positions.filter fun j => i == j || reaches i j && reaches j i)

/-- Whether one list of texts comes no later than another. -/
def textsLE (a b : List String) : Bool :=
  !decide (b < a)

/-- Whether one text comes no later than another. -/
def textLE (a b : String) : Bool :=
  !decide (b < a)

namespace ModuleGraph

/-- Whether an edge leads from one position to another. -/
def hasEdge (graph : ModuleGraph) (i j : Nat) : Bool :=
  graph.edges.contains (i, j)

/-- Whether a strongly connected component is a cycle: it has several positions, or one with an edge
to itself. -/
def isCyclic (graph : ModuleGraph) (component : List Nat) : Bool :=
  decide (1 < component.length) || component.any fun i => graph.hasEdge i i

/-- The identifiers of the manifest behind some positions, in ascending order. -/
def idsOf (graph : ModuleGraph) (component : List Nat) : List String :=
  (component.filterMap fun i => (graph.node? i).map DependencyNode.rawId).mergeSort textLE

/-- The cycles among the strongly connected components of a graph, each as the identifiers of its
nodes, in ascending order. -/
def cyclesAmong (graph : ModuleGraph) (components : List (List Nat)) : List (List String) :=
  ((components.filter graph.isCyclic).map graph.idsOf).mergeSort textsLE

/-- The identifiers of the modules that take part in dependency cycles, cycle by cycle. -/
def cycles (graph : ModuleGraph) : List (List String) :=
  graph.cyclesAmong (strongComponents graph.edges graph.nodes.length)

end ModuleGraph

end ManifestAtlas
