import ManifestAtlas.Diagram.DependencyDiagram
import ManifestAtlas.Diagram.Flowchart
import ManifestAtlas.Diagram.StateChart
import ManifestAtlas.Outline.Sections
import ManifestAtlas.Render.DiagramFile
import ManifestAtlas.Report.Select

/-!
# Rendering

One diagram on demand, or all diagrams of a manifest: the dependency diagram,
the outline, and for each module its flowcharts and its state diagrams.

Main statement: rendering everything gives one diagram for each planned file
(`length_renderAll`).
-/

namespace ManifestAtlas

/-- A diagram with the file it belongs into. -/
structure RenderedDiagram where
  file : DiagramFile
  content : String
  deriving DecidableEq, Repr

/-- The flowchart of a flow, selected by identifier. -/
def renderFlow (manifest : Manifest) (moduleId flowId : String) : Except SelectError String :=
  (selectFlow manifest moduleId flowId).map fun (module, flow) => flowchart flow module.rules

/-- The state diagram of a state machine, selected by identifier. -/
def renderStates (manifest : Manifest) (moduleId machineId : String) : Except SelectError String :=
  (selectStateMachine manifest moduleId machineId).map fun (_, machine) => stateDiagram machine

/-- A flow with its diagram. -/
def flowRendering (module : Module) (flow : Flow) : RenderedDiagram where
  file := ⟨.flow, ["flows", fileStem module.id], fileStem flow.id⟩
  content := flowchart flow module.rules

/-- A state machine with its diagram. -/
def statesRendering (module : Module) (machine : StateMachine) : RenderedDiagram where
  file := ⟨.states, ["states", fileStem module.id], fileStem machine.id⟩
  content := stateDiagram machine

/-- The diagrams of a module. -/
def moduleRenderings (module : Module) : List RenderedDiagram :=
  module.flows.map (flowRendering module) ++ module.stateMachines.map (statesRendering module)

/-- All diagrams of a manifest, before their paths are told apart. -/
def plannedRenderings (manifest : Manifest) : List RenderedDiagram :=
  ⟨⟨.dependencies, [], "dependencies"⟩, dependencyDiagram manifest⟩ ::
    ⟨⟨.mindmap, [], "mindmap"⟩, outline manifest⟩ ::
    manifest.modules.flatMap moduleRenderings

/-- All diagrams of a manifest, each with a path of its own. -/
def renderAll (manifest : Manifest) : List RenderedDiagram :=
  let planned := plannedRenderings manifest
  let files := DiagramFile.assignPaths [] (planned.map (·.file))
  List.zipWith (fun file diagram => { diagram with file }) files planned

theorem DiagramFile.length_assignPaths (taken : List String) (files : List DiagramFile) :
    (assignPaths taken files).length = files.length := by
  induction files generalizing taken with
  | nil => rfl
  | cons file files ih => simp [assignPaths, ih]

theorem length_renderAll (manifest : Manifest) :
    (renderAll manifest).length = (plannedRenderings manifest).length := by
  simp [renderAll, DiagramFile.length_assignPaths]

end ManifestAtlas
