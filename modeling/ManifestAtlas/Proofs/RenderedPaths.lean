import ManifestAtlas.Proofs.PlainPaths
import ManifestAtlas.Render.Rendering

/-!
# Every diagram has a path of its own

`DiagramJob` lists what a manifest asks for, each diagram with the paths that
it may get: the one that its identifiers give, and the same with `-2`, `-3` and
so on behind the stem.  The main statement (`renderAll_paths`) says that every
diagram gets the first of them that went to no diagram before it.  From this it
follows that no two diagrams have one path, whatever the identifiers are, that
all paths lead below the output directory, that none of them goes through the
file of another, and that modules at the end of a manifest change no path
before them.
-/

namespace ManifestAtlas

/-! ## Jobs -/

/-- A diagram that a manifest asks for. -/
inductive DiagramJob where
  | dependencies
  | mindmap
  | flow (module : Module) (flow : Flow)
  | states (module : Module) (machine : StateMachine)

/-- All diagrams that a manifest asks for, in order. -/
def Manifest.diagramJobs (manifest : Manifest) : List DiagramJob :=
  .dependencies :: .mindmap :: manifest.modules.flatMap fun module =>
    module.flows.map (.flow module) ++ module.stateMachines.map (.states module)

namespace DiagramJob

def kind : DiagramJob → DiagramKind
  | .dependencies => .dependencies
  | .mindmap => .mindmap
  | .flow _ _ => .flow
  | .states _ _ => .states

def content (manifest : Manifest) : DiagramJob → String
  | .dependencies => dependencyDiagram manifest
  | .mindmap => outline manifest
  | .flow module f => flowchart f module.rules
  | .states _ machine => stateDiagram machine

/-- The path of a diagram with the `n`-th suffix behind its stem. -/
def pathAt (job : DiagramJob) (n : Nat) : String :=
  let suffix := DiagramFile.numberSuffix n
  match job with
  | .dependencies => "dependencies" ++ suffix ++ ".mmd"
  | .mindmap => "mindmap" ++ suffix ++ ".md"
  | .flow module f =>
    "flows/" ++ fileStem module.id ++ "/" ++ fileStem f.id ++ suffix ++ ".mmd"
  | .states module machine =>
    "states/" ++ fileStem module.id ++ "/" ++ fileStem machine.id ++ suffix ++ ".mmd"

/-- The file of a diagram without a suffix. -/
def file : DiagramJob → DiagramFile
  | .dependencies => ⟨.dependencies, [], "dependencies"⟩
  | .mindmap => ⟨.mindmap, [], "mindmap"⟩
  | .flow module f => ⟨.flow, ["flows", fileStem module.id], fileStem f.id⟩
  | .states module machine => ⟨.states, ["states", fileStem module.id], fileStem machine.id⟩

theorem path_file_suffixed (job : DiagramJob) (n : Nat) :
    (job.file.suffixed n).path = job.pathAt n := by
  rw [DiagramFile.path_suffixed]
  cases job <;>
    simp [file, pathAt, DiagramFile.directory, DiagramKind.extension, String.append_assoc]

theorem kind_file_suffixed (job : DiagramJob) (n : Nat) :
    (job.file.suffixed n).kind = job.kind := by
  cases n <;> cases job <;> rfl

/-- The words of the paths are bare, and so is what is made from identifiers. -/
theorem isBare_file (job : DiagramJob) : job.file.IsBare := by
  have hflows : IsBareName "flows" := .of_fileStem_eq (by decide +kernel)
  have hstates : IsBareName "states" := .of_fileStem_eq (by decide +kernel)
  cases job with
  | dependencies =>
    exact ⟨fun _ h => absurd h List.not_mem_nil, .of_fileStem_eq (by decide +kernel)⟩
  | mindmap => exact ⟨fun _ h => absurd h List.not_mem_nil, .of_fileStem_eq (by decide +kernel)⟩
  | flow module f =>
    refine ⟨fun folder h => ?_, isBareName_fileStem f.id⟩
    rcases List.mem_cons.1 h with rfl | h
    · exact hflows
    · rw [List.mem_singleton.1 h]
      exact isBareName_fileStem module.id
  | states module machine =>
    refine ⟨fun folder h => ?_, isBareName_fileStem machine.id⟩
    rcases List.mem_cons.1 h with rfl | h
    · exact hstates
    · rw [List.mem_singleton.1 h]
      exact isBareName_fileStem module.id

end DiagramJob

/-! ## Rendering -/

section

variable (manifest : Manifest)

theorem plannedRenderings_eq :
    plannedRenderings manifest =
      manifest.diagramJobs.map fun job => ⟨job.file, job.content manifest⟩ := by
  have hmodules : manifest.modules.flatMap moduleRenderings =
      (manifest.modules.flatMap fun module =>
        module.flows.map (.flow module) ++ module.stateMachines.map (.states module)).map
          fun job => ⟨DiagramJob.file job, job.content manifest⟩ := by
    rw [List.map_flatMap]
    refine List.flatMap_congr fun module _ => ?_
    rw [moduleRenderings, List.map_append, List.map_map, List.map_map]
    rfl
  rw [plannedRenderings, hmodules]
  rfl

theorem length_renderAll_eq : (renderAll manifest).length = manifest.diagramJobs.length := by
  rw [length_renderAll, plannedRenderings_eq, List.length_map]

theorem length_diagramJobs :
    manifest.diagramJobs.length = 2 + (manifest.modules.map (·.flows.length)).sum +
      (manifest.modules.map (·.stateMachines.length)).sum := by
  rw [Manifest.diagramJobs, List.length_cons, List.length_cons, List.length_flatMap]
  simp only [List.length_append, List.length_map]
  rw [List.sum_map_add]
  omega

/-- The files of the diagrams are the ones that were assigned. -/
theorem map_file_renderAll :
    (renderAll manifest).map (·.file) =
      DiagramFile.assignPaths [] (manifest.diagramJobs.map DiagramJob.file) := by
  have hfiles : (plannedRenderings manifest).map (·.file) =
      manifest.diagramJobs.map DiagramJob.file := by
    rw [plannedRenderings_eq, List.map_map]
    rfl
  rw [renderAll, hfiles, plannedRenderings_eq]
  apply List.ext_getElem
  · simp [DiagramFile.length_assignPaths]
  · intro k _ _
    simp

theorem map_content_renderAll :
    (renderAll manifest).map (·.content) =
      manifest.diagramJobs.map (DiagramJob.content manifest) := by
  rw [renderAll, plannedRenderings_eq]
  apply List.ext_getElem
  · simp [DiagramFile.length_assignPaths]
  · intro k _ _
    simp

/-- The paths of all diagrams, in order. -/
def outputPaths : List String :=
  (renderAll manifest).map (·.file.path)

theorem outputPaths_eq :
    outputPaths manifest =
      (DiagramFile.assignPaths [] (manifest.diagramJobs.map DiagramJob.file)).map
        DiagramFile.path := by
  rw [← map_file_renderAll, List.map_map]
  rfl

/-- The diagram at a position is that of its job, with the first path of the job that no diagram
before it has. -/
theorem exists_diagram {k : Nat} {job : DiagramJob} (h : manifest.diagramJobs[k]? = some job) :
    ∃ n diagram, (renderAll manifest)[k]? = some diagram ∧
      diagram.file = job.file.suffixed n ∧ diagram.content = job.content manifest ∧
      IsFirstFree job.pathAt ((outputPaths manifest).take k) (job.pathAt n) := by
  have hfile : (manifest.diagramJobs.map DiagramJob.file)[k]? = some job.file := by
    rw [List.getElem?_map, h]
    rfl
  have hcontent : ((renderAll manifest).map (·.content))[k]? = some (job.content manifest) := by
    rw [map_content_renderAll, List.getElem?_map, h]
    rfl
  obtain ⟨n, hget, hfirst⟩ := DiagramFile.isFirstFree_assignPaths [] _ hfile
  rw [← map_file_renderAll, List.getElem?_map] at hget
  obtain ⟨diagram, hdiagram, hdiagramFile⟩ := Option.map_eq_some_iff.1 hget
  rw [List.getElem?_map, hdiagram] at hcontent
  rw [List.append_nil, List.map_take, ← outputPaths_eq] at hfirst
  simp only [DiagramJob.path_file_suffixed] at hfirst
  exact ⟨n, diagram, hdiagram, hdiagramFile, Option.some.inj hcontent, hfirst⟩

theorem isBare_of_mem_renderAll {diagram : RenderedDiagram} (h : diagram ∈ renderAll manifest) :
    diagram.file.IsBare := by
  obtain ⟨k, hk⟩ := List.mem_iff_getElem?.1 h
  have hlt : k < manifest.diagramJobs.length := by
    rw [← length_renderAll_eq]
    exact (List.getElem?_eq_some_iff.1 hk).1
  obtain ⟨n, other, hother, hfile, _⟩ :=
    exists_diagram manifest (List.getElem?_eq_getElem hlt)
  obtain rfl : diagram = other := Option.some.inj (hk.symm.trans hother)
  rw [hfile]
  exact (DiagramJob.isBare_file _).suffixed n

theorem isBare_of_mem_outputPaths {path : String} (h : path ∈ outputPaths manifest) :
    ∃ file : DiagramFile, file.IsBare ∧ file.path = path := by
  obtain ⟨diagram, hdiagram, rfl⟩ := List.mem_map.1 h
  exact ⟨diagram.file, isBare_of_mem_renderAll manifest hdiagram, rfl⟩

/-- Modules at the end of a manifest add jobs at the end. -/
theorem diagramJobs_append (modules : List Module) :
    ∃ jobs, Manifest.diagramJobs { manifest with modules := manifest.modules ++ modules } =
      manifest.diagramJobs ++ jobs := by
  refine ⟨modules.flatMap fun module =>
    module.flows.map (.flow module) ++ module.stateMachines.map (.states module), ?_⟩
  rw [Manifest.diagramJobs, List.flatMap_append]
  rfl

end

/-- All diagrams of a manifest are made, in order, and each of them has a path of its own that
leads below the output directory: the first of the paths of its job that no diagram before it
has. -/
theorem renderAll_paths (manifest : Manifest) :
    (renderAll manifest).length = 2 + (manifest.modules.map (·.flows.length)).sum +
        (manifest.modules.map (·.stateMachines.length)).sum ∧
    (renderAll manifest).length = manifest.diagramJobs.length ∧
    (∀ k job, manifest.diagramJobs[k]? = some job →
      ∃ diagram, (renderAll manifest)[k]? = some diagram ∧
        diagram.file.kind = job.kind ∧ diagram.content = job.content manifest ∧
        IsFirstFree job.pathAt ((outputPaths manifest).take k) diagram.file.path) ∧
    (outputPaths manifest).Nodup ∧
    (∀ path ∈ outputPaths manifest, IsContained path) ∧
    (∀ a ∈ outputPaths manifest, ∀ b ∈ outputPaths manifest,
      a.toList <+: b.toList ∨ Path.components ⟨a⟩ <+: Path.components ⟨b⟩ → a = b) ∧
    (∀ modules, outputPaths manifest <+:
      outputPaths { manifest with modules := manifest.modules ++ modules }) := by
  have hlength := length_renderAll_eq manifest
  refine ⟨hlength.trans (length_diagramJobs manifest), hlength, ?_, ?_, ?_, ?_, ?_⟩
  · intro k job hjob
    obtain ⟨n, diagram, hdiagram, hfile, hcontent, hfirst⟩ := exists_diagram manifest hjob
    refine ⟨diagram, hdiagram, ?_, hcontent, ?_⟩
    · rw [hfile, DiagramJob.kind_file_suffixed]
    · rw [hfile, DiagramJob.path_file_suffixed]
      exact hfirst
  · rw [outputPaths_eq]
    exact (DiagramFile.nodup_assignPaths [] _).1
  · intro path hpath
    obtain ⟨file, hbare, rfl⟩ := isBare_of_mem_outputPaths manifest hpath
    exact hbare.isContained
  · intro a ha b hb hstart
    obtain ⟨file, hfile, rfl⟩ := isBare_of_mem_outputPaths manifest ha
    obtain ⟨other, hother, rfl⟩ := isBare_of_mem_outputPaths manifest hb
    rcases hstart with htext | hcomponents
    · exact hother.path_eq_of_isPrefix htext
    · exact hfile.path_eq_of_components hother hcomponents
  · intro modules
    obtain ⟨jobs, hjobs⟩ := diagramJobs_append manifest modules
    rw [outputPaths_eq, outputPaths_eq, hjobs, List.map_append]
    exact (DiagramFile.assignPaths_isPrefix [] _ _).map _

end ManifestAtlas
