import ManifestAtlas.Diagram.ModuleGraph
import ManifestAtlas.Mermaid.FlowDiagram

/-!
# The diagram of a dependency graph

One node for each node of the graph and one arrow for each edge.  External
dependencies are set apart by a style of their own.
-/

namespace ManifestAtlas

open Mermaid

/-- The label of a node: its name, and what it is. -/
def DependencyNode.label : DependencyNode → String
  | .module m => s!"{m.name}\n{m.id}"
  | .external id => s!"{id}\n外部/未知"

/-- The statement that draws a node. -/
def DependencyNode.statement (node : DependencyNode) : FlowStatement :=
  .node node.nodeId .box node.label

/-- The statements that style the external nodes, if there are any. -/
def externalStyle (ids : List String) : List FlowStatement :=
  if ids.isEmpty then []
  else
    [.style "external" "fill:#f6f6f6,stroke:#999,stroke-dasharray:4 2", .assign ids "external"]

/-- The diagram of a graph. -/
def ModuleGraph.diagram (graph : ModuleGraph) : FlowDiagram where
  direction := .leftToRight
  statements :=
    graph.nodes.map DependencyNode.statement ++
    graph.nodePairs.map (fun (source, target) => .arrow source.nodeId target.nodeId) ++
    externalStyle ((graph.nodes.filter DependencyNode.isExternal).map DependencyNode.nodeId)

/-- The text of the dependency diagram of a manifest. -/
def dependencyDiagram (manifest : Manifest) : String :=
  (ModuleGraph.build manifest).diagram.text

end ManifestAtlas
