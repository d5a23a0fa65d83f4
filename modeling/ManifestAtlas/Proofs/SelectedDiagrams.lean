import ManifestAtlas.Proofs.CatalogRows
import ManifestAtlas.Proofs.CleanLint
import ManifestAtlas.Proofs.RenderedPaths
import ManifestAtlas.Proofs.Suggestions

/-!
# Listed, selected and rendered diagrams

A flow or a state machine can be reached in three ways: the catalog lists it,
its identifiers select it, and rendering everything draws it.  Selecting takes
the first entry with an identifier, so that the three agree where identifiers
are unique: modules in the manifest, and the flows and the state machines in
each module.

There are three groups.

* What a selection names.  `map_selection?_diagramJobs` says that the catalog
  lists what leads to the diagrams of flows and of state machines, in order.
* Selecting.  `draw_of_mem_diagramJobs` finds the diagram of a selection, and
  `exists_mismatch` the reason why there is none.
* The agreement of all three (`listing_selection_rendering_agree`).
-/

namespace ManifestAtlas

/-! ## Selections -/

namespace Selection

/-- The module that a selection is in. -/
def moduleId : Selection → String
  | .flow module _ => module
  | .states module _ => module

/-- The diagram of a selection, when the manifest has what is selected. -/
def draw (manifest : Manifest) : Selection → Except SelectError String
  | .flow module id => renderFlow manifest module id
  | .states module id => renderStates manifest module id

/-- The file that a selection is drawn into, without a suffix. -/
def file : Selection → DiagramFile
  | .flow module id => ⟨.flow, ["flows", fileStem module], fileStem id⟩
  | .states module id => ⟨.states, ["states", fileStem module], fileStem id⟩

end Selection

/-- The selection that leads to a diagram, which the two diagrams of the whole manifest do not
have. -/
def DiagramJob.selection? : DiagramJob → Option Selection
  | .dependencies | .mindmap => none
  | .flow module f => some (.flow module.id f.id)
  | .states module machine => some (.states module.id machine.id)

/-- The error that says which part of a selection a manifest does not have. -/
inductive Selection.Mismatch (manifest : Manifest) : Selection → SelectError → Prop where
  | module {selection : Selection} (h : selection.moduleId ∉ manifest.modules.map Module.id) :
      Mismatch manifest selection (.unknownModule selection.moduleId
        (suggestionsFor (manifest.modules.map Module.id) selection.moduleId))
  | flow {module : Module} {id : String} (hmodule : module ∈ manifest.modules)
      (h : id ∉ module.flows.map Flow.id) :
      Mismatch manifest (.flow module.id id)
        (.unknownFlow module.id id (suggestionsFor (module.flows.map Flow.id) id))
  | states {module : Module} {id : String} (hmodule : module ∈ manifest.modules)
      (h : id ∉ module.stateMachines.map StateMachine.id) :
      Mismatch manifest (.states module.id id)
        (.unknownStateMachine module.id id
          (suggestionsFor (module.stateMachines.map StateMachine.id) id))

/-- A diagram belongs to a selection: it is in the file named after the identifiers, with a suffix
if that is taken, and it is what selecting draws. -/
structure RenderedDiagram.BelongsTo (diagram : RenderedDiagram) (manifest : Manifest)
    (selection : Selection) : Prop where
  file : ∃ n, diagram.file = selection.file.suffixed n
  kind : diagram.file.kind = selection.file.kind
  drawn : selection.draw manifest = .ok diagram.content

section

variable {manifest : Manifest}

/-- The catalog lists the flows and the state machines of each module, module by module. -/
theorem listedSelections_eq (manifest : Manifest) :
    manifest.listedSelections = manifest.modules.flatMap fun module =>
      module.flows.map (fun f => .flow module.id f.id) ++
        module.stateMachines.map fun machine => .states module.id machine.id := by
  rw [Manifest.listedSelections, Manifest.catalogRows,
    List.filterMap_cons_none (by rfl), List.filterMap_flatMap]
  refine List.flatMap_congr fun module _ => ?_
  rw [Module.catalogRows, List.cons_append, List.filterMap_cons_none (by rfl),
    List.filterMap_append, List.filterMap_map, List.filterMap_map]
  simp [Function.comp_def, CatalogRow.selection?]

/-- The diagrams after the two of the whole manifest are those of the listed selections. -/
theorem map_selection?_diagramJobs (manifest : Manifest) :
    (manifest.diagramJobs.drop 2).map DiagramJob.selection? =
      manifest.listedSelections.map some := by
  rw [listedSelections_eq, List.map_flatMap, Manifest.diagramJobs, List.drop_succ_cons,
    List.drop_succ_cons, List.drop_zero, List.map_flatMap]
  refine List.flatMap_congr fun module _ => ?_
  simp [Function.comp_def, DiagramJob.selection?]

theorem mem_listedSelections {job : DiagramJob} (hjob : job ∈ manifest.diagramJobs)
    {selection : Selection} (hselection : job.selection? = some selection) :
    selection ∈ manifest.listedSelections := by
  have hdrop : job ∈ manifest.diagramJobs.drop 2 := by
    rcases List.mem_cons.1 hjob with rfl | hjob
    · cases hselection
    · rcases List.mem_cons.1 hjob with rfl | hjob
      · cases hselection
      · exact hjob
  have hmem := List.mem_map_of_mem (f := DiagramJob.selection?) hdrop
  rw [map_selection?_diagramJobs, hselection] at hmem
  simpa using hmem

theorem flow_mem_diagramJobs {module : Module} {f : Flow} :
    DiagramJob.flow module f ∈ manifest.diagramJobs ↔
      module ∈ manifest.modules ∧ f ∈ module.flows := by
  simp [Manifest.diagramJobs]

theorem states_mem_diagramJobs {module : Module} {machine : StateMachine} :
    DiagramJob.states module machine ∈ manifest.diagramJobs ↔
      module ∈ manifest.modules ∧ machine ∈ module.stateMachines := by
  simp [Manifest.diagramJobs]

/-- Every diagram that is rendered is that of a job, in order. -/
theorem forall₂_renderAll (manifest : Manifest) :
    List.Forall₂ (fun job diagram => job ∈ manifest.diagramJobs ∧
      (∃ n, diagram.file = job.file.suffixed n) ∧ diagram.content = job.content manifest)
      manifest.diagramJobs (renderAll manifest) := by
  rw [List.forall₂_iff_get]
  refine ⟨(length_renderAll_eq manifest).symm, fun k hk hk' => ?_⟩
  obtain ⟨n, diagram, hdiagram, hfile, hcontent, _⟩ :=
    exists_diagram manifest (List.getElem?_eq_getElem hk)
  have hget : (renderAll manifest)[k] = diagram := by
    rw [List.getElem?_eq_getElem hk'] at hdiagram
    exact Option.some.inj hdiagram
  rw [List.get_eq_getElem, List.get_eq_getElem, hget]
  exact ⟨List.getElem_mem hk, ⟨n, hfile⟩, hcontent⟩

/-! ## Selecting -/

/-- No two modules share an identifier, and neither do two flows or two state machines of one
module. -/
structure Manifest.HasUniqueIds (manifest : Manifest) : Prop where
  modules : (manifest.modules.map Module.id).Nodup
  flows : ∀ module ∈ manifest.modules, (module.flows.map Flow.id).Nodup
  machines : ∀ module ∈ manifest.modules, (module.stateMachines.map StateMachine.id).Nodup

theorem renderFlow_eq (manifest : Manifest) (moduleId id : String) :
    renderFlow manifest moduleId id =
      (selectPart manifest Module.flows Flow.id (.unknownFlow moduleId id) moduleId id).map
        fun (module, flow) => flowchart flow module.rules := by
  rw [renderFlow, selectFlow_eq]

theorem renderStates_eq (manifest : Manifest) (moduleId id : String) :
    renderStates manifest moduleId id =
      (selectPart manifest Module.stateMachines StateMachine.id
        (.unknownStateMachine moduleId id) moduleId id).map
        fun (_, machine) => stateDiagram machine := by
  rw [renderStates, selectStateMachine_eq]

/-- The selection that leads to a diagram draws it. -/
theorem draw_of_mem_diagramJobs (h : manifest.HasUniqueIds) {job : DiagramJob}
    (hjob : job ∈ manifest.diagramJobs) {selection : Selection}
    (hselection : job.selection? = some selection) :
    selection.draw manifest = .ok (job.content manifest) := by
  cases job with
  | dependencies => cases hselection
  | mindmap => cases hselection
  | flow module f =>
    obtain rfl := Option.some.inj hselection
    obtain ⟨hmodule, hf⟩ := flow_mem_diagramJobs.1 hjob
    rw [Selection.draw, renderFlow_eq,
      selectPart_of_mem h.modules (h.flows module hmodule) hmodule hf]
    rfl
  | states module machine =>
    obtain rfl := Option.some.inj hselection
    obtain ⟨hmodule, hmachine⟩ := states_mem_diagramJobs.1 hjob
    rw [Selection.draw, renderStates_eq,
      selectPart_of_mem h.modules (h.machines module hmodule) hmodule hmachine]
    rfl

/-- A selection that is not listed is refused, with the reason. -/
theorem exists_mismatch {selection : Selection} (h : selection ∉ manifest.listedSelections) :
    ∃ e, selection.draw manifest = .error e ∧ selection.Mismatch manifest e := by
  have hlisted : ∀ job ∈ manifest.diagramJobs, job.selection? ≠ some selection :=
    fun job hjob hselection => h (mem_listedSelections hjob hselection)
  cases selection with
  | flow moduleId id =>
    rw [Selection.draw, renderFlow_eq]
    rcases selectPart_cases manifest Module.flows Flow.id
        (.unknownFlow moduleId id) moduleId id with
      ⟨module, hmodule, f, hf, rfl, rfl, _⟩ | ⟨hmodule, heq⟩ | ⟨module, hmodule, rfl, hid, heq⟩
    · exact absurd rfl (hlisted (.flow module f) (flow_mem_diagramJobs.2 ⟨hmodule, hf⟩))
    · rw [heq]
      exact ⟨_, rfl, .module hmodule⟩
    · rw [heq]
      exact ⟨_, rfl, .flow hmodule hid⟩
  | states moduleId id =>
    rw [Selection.draw, renderStates_eq]
    rcases selectPart_cases manifest Module.stateMachines StateMachine.id
        (.unknownStateMachine moduleId id) moduleId id with
      ⟨module, hmodule, machine, hmachine, rfl, rfl, _⟩ | ⟨hmodule, heq⟩ |
      ⟨module, hmodule, rfl, hid, heq⟩
    · exact absurd rfl
        (hlisted (.states module machine) (states_mem_diagramJobs.2 ⟨hmodule, hmachine⟩))
    · rw [heq]
      exact ⟨_, rfl, .module hmodule⟩
    · rw [heq]
      exact ⟨_, rfl, .states hmodule hid⟩

/-- The rendered diagrams are the two of the whole manifest, and then those of the listed
selections in order. -/
theorem exists_renderAll_eq (h : manifest.HasUniqueIds) :
    ∃ dependencies mindmap parts, renderAll manifest = dependencies :: mindmap :: parts ∧
      (dependencies.file.kind = .dependencies ∧
        dependencies.content = dependencyDiagram manifest) ∧
      (mindmap.file.kind = .mindmap ∧ mindmap.content = outline manifest) ∧
      List.Forall₂ (fun selection diagram => diagram.BelongsTo manifest selection)
        manifest.listedSelections parts := by
  have hall : List.Forall₂ (fun job diagram =>
      (diagram.file.kind = job.kind ∧ diagram.content = job.content manifest) ∧
        ∀ selection, job.selection? = some selection → diagram.BelongsTo manifest selection)
      (.dependencies :: .mindmap :: manifest.diagramJobs.drop 2) (renderAll manifest) := by
    refine (forall₂_renderAll manifest).imp fun job diagram hmakes => ?_
    obtain ⟨hjob, ⟨n, hfile⟩, hcontent⟩ := hmakes
    have hkind : diagram.file.kind = job.kind := by rw [hfile, DiagramJob.kind_file_suffixed]
    refine ⟨⟨hkind, hcontent⟩, fun selection hselection => ?_⟩
    have hdrawn := draw_of_mem_diagramJobs h hjob hselection
    rw [← hcontent] at hdrawn
    cases job <;> cases hselection <;> exact ⟨⟨n, hfile⟩, hkind, hdrawn⟩
  obtain ⟨dependencies, _, hdependencies, hall, hfirst⟩ := List.forall₂_cons_left_iff.1 hall
  obtain ⟨mindmap, parts, hmindmap, hparts, rfl⟩ := List.forall₂_cons_left_iff.1 hall
  refine ⟨dependencies, mindmap, parts, hfirst, hdependencies.1, hmindmap.1, ?_⟩
  have hlisted : List.Forall₂ (fun selection? diagram =>
      ∀ selection, selection? = some selection → diagram.BelongsTo manifest selection)
      (manifest.listedSelections.map some) parts := by
    rw [← map_selection?_diagramJobs, List.forall₂_map_left_iff]
    exact hparts.imp fun _ _ hjob => hjob.2
  rw [List.forall₂_map_left_iff] at hlisted
  exact hlisted.imp fun _ _ hbelongs => hbelongs _ rfl

/-! ## The agreement -/

/-- Where identifiers are unique, the catalog lists the diagrams that are rendered after the two of
the whole manifest, in their order.  Selecting what is listed draws its diagram, and selecting
anything else is refused with the part that is missing. -/
theorem listing_selection_rendering_agree (h : manifest.HasUniqueIds) :
    (∃ lines, catalog manifest = unlines lines ∧
      List.Forall₂ CatalogRow.IsShownBy lines manifest.catalogRows) ∧
    (∃ dependencies mindmap parts, renderAll manifest = dependencies :: mindmap :: parts ∧
      (dependencies.file.kind = .dependencies ∧
        dependencies.content = dependencyDiagram manifest) ∧
      (mindmap.file.kind = .mindmap ∧ mindmap.content = outline manifest) ∧
      List.Forall₂ (fun selection diagram => diagram.BelongsTo manifest selection)
        manifest.listedSelections parts) ∧
    ∀ selection ∉ manifest.listedSelections,
      ∃ e, selection.draw manifest = .error e ∧ selection.Mismatch manifest e :=
  ⟨⟨catalogLines manifest, rfl, catalogLines_show_rows manifest⟩, exists_renderAll_eq h,
    fun _ hunlisted => exists_mismatch hunlisted⟩

end

/-- A module that is like the one for orders, with flows and states of the same identifiers. -/
def stockModule : Module :=
  { orderModule with id := "stock", name := "Stock" }

/-- A manifest with two modules that share identifiers of flows and states. -/
def shopManifest : Manifest :=
  { orderManifest with modules := [orderModule, stockModule] }

theorem shopManifest_refuses_refund :
    shopManifest.HasUniqueIds ∧
    shopManifest.listedSelections = [.flow "order" "pay", .states "order" "status",
      .flow "stock" "pay", .states "stock" "status"] ∧
    (renderAll shopManifest).length = 6 ∧
    ∃ e, renderFlow shopManifest "stock" "refund" = .error e := by
  have hunique : shopManifest.HasUniqueIds := ⟨by decide, by decide, by decide⟩
  obtain ⟨_, ⟨_, _, parts, hrendered, _, _, hparts⟩, hunlisted⟩ :=
    listing_selection_rendering_agree hunique
  have hlisted : shopManifest.listedSelections = [.flow "order" "pay", .states "order" "status",
      .flow "stock" "pay", .states "stock" "status"] := by decide
  obtain ⟨e, he, _⟩ := hunlisted (.flow "stock" "refund") (by decide)
  have hlength : parts.length = 4 := by rw [← hparts.length_eq, hlisted]; rfl
  exact ⟨hunique, hlisted, by rw [hrendered]; simp [hlength], e, he⟩

end ManifestAtlas
