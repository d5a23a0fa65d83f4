import ManifestAtlas.Diagram.Flowchart
import ManifestAtlas.Outline.Sections
import ManifestAtlas.Proofs.DependencyCycles
import ManifestAtlas.Proofs.LintFindings

/-!
# The order in which steps are listed

The steps of a flow are listed in any order and numbered for execution.  Sorting
them by their numbers is stable, and this determines the result: steps in
execution order are the same as soon as the listed steps with each number are
(`orderedSteps_eq_iff`).

`Manifest.inOrder` lists the steps of every flow in execution order.  A text that
shows steps in execution order only is the same for a manifest and for this one;
`flowchart_inOrder`, `outline_inOrder` and `lint_inOrder` say so of the
flowcharts, of the outline and of the lint.  Manifests that differ only in how
steps are listed (`Manifest.Relists`) agree once the steps are in order, hence in
all three.
-/

namespace ManifestAtlas

/-! ## Steps in execution order -/

/-- The steps with an order number, as they are listed. -/
def stepsAt (order : Int64) (steps : List Step) : List Step :=
  steps.filter (·.order = order)

/-- A list of the same steps that ascends in their order numbers, in which steps with the same
number stand as they are listed. -/
structure IsExecutionOrder (listed ordered : List Step) : Prop where
  perm : ordered.Perm listed
  ascending : ordered.Pairwise fun a b => a.order.toInt ≤ b.order.toInt
  ties : ∀ order, stepsAt order ordered = stepsAt order listed

theorem stepsAt_cons (order : Int64) (step : Step) (steps : List Step) :
    stepsAt order (step :: steps) =
      if step.order = order then step :: stepsAt order steps else stepsAt order steps := by
  simp [stepsAt, List.filter_cons]

/-- Ascending lists begin with the same number when they have the same steps. -/
theorem order_le_of_stepsAt_eq {a b : Step} {as bs : List Step}
    (has : (a :: as).Pairwise fun x y => x.order.toInt ≤ y.order.toInt)
    (h : stepsAt b.order (a :: as) = stepsAt b.order (b :: bs)) :
    a.order.toInt ≤ b.order.toInt := by
  have hb : b ∈ stepsAt b.order (a :: as) := by
    rw [h, stepsAt_cons, if_pos rfl]
    exact List.mem_cons_self
  rcases List.mem_cons.1 (List.mem_filter.1 hb).1 with rfl | hmem
  · exact Int.le_refl _
  · exact (List.pairwise_cons.1 has).1 b hmem

/-- An ascending list of steps is determined by its steps with each number. -/
theorem eq_of_stepsAt_eq {as bs : List Step}
    (has : as.Pairwise fun x y => x.order.toInt ≤ y.order.toInt)
    (hbs : bs.Pairwise fun x y => x.order.toInt ≤ y.order.toInt)
    (h : ∀ order, stepsAt order as = stepsAt order bs) : as = bs := by
  induction as generalizing bs with
  | nil =>
    cases bs with
    | nil => rfl
    | cons b bs => simpa [stepsAt] using h b.order
  | cons a as ih =>
    cases bs with
    | nil => simpa [stepsAt] using h a.order
    | cons b bs =>
      -- each of the two first steps is in the other list, and comes no earlier there
      have horder : a.order = b.order := by
        apply Int64.toInt_inj.1
        exact Int.le_antisymm (order_le_of_stepsAt_eq has (h b.order))
          (order_le_of_stepsAt_eq hbs (h a.order).symm)
      have hstep : a = b := by
        have := h a.order
        rw [stepsAt_cons, stepsAt_cons, if_pos rfl, if_pos horder.symm] at this
        exact (List.cons.inj this).1
      subst hstep
      congr 1
      refine ih (List.pairwise_cons.1 has).2 (List.pairwise_cons.1 hbs).2 fun order => ?_
      have := h order
      rw [stepsAt_cons, stepsAt_cons] at this
      split at this
      · exact (List.cons.inj this).2
      · exact this

/-- Sorting keeps the steps with each number as they are listed. -/
theorem stepsAt_orderedSteps (flow : Flow) (order : Int64) :
    stepsAt order flow.orderedSteps = stepsAt order flow.steps := by
  have htied : (stepsAt order flow.steps).Pairwise fun a b => a.notAfter b = true := by
    rw [List.pairwise_iff_forall_sublist]
    intro a b hab
    have horder : ∀ step ∈ [a, b], step.order = order := fun step hstep => by
      simpa using (List.mem_filter.1 (hab.subset hstep)).2
    rw [Step.notAfter, horder a (by simp), horder b (by simp)]
    simp
  have htrans : ∀ a b c : Step, a.notAfter b = true → b.notAfter c = true → a.notAfter c = true :=
    fun _ _ _ => Step.notAfter_trans
  have hsorted : (stepsAt order flow.steps).Sublist flow.orderedSteps :=
    @List.sublist_mergeSort Step Step.notAfter flow.steps htrans Step.notAfter_total _ htied
      List.filter_sublist
  have hkept : (stepsAt order flow.steps).Sublist (stepsAt order flow.orderedSteps) := by
    have hfiltered := hsorted.filter (·.order = order)
    have hsame : (stepsAt order flow.steps).filter (·.order = order) = stepsAt order flow.steps :=
      List.filter_eq_self.2 fun step hstep => (List.mem_filter.1 hstep).2
    rwa [hsame] at hfiltered
  -- there are no more steps with the number after sorting than before
  exact (hkept.eq_of_length (flow.orderedSteps_perm.filter _).length_eq.symm).symm

theorem isExecutionOrder_orderedSteps (flow : Flow) :
    IsExecutionOrder flow.steps flow.orderedSteps where
  perm := flow.orderedSteps_perm
  ascending := flow.orderedSteps_sorted.imp Int64.le_iff_toInt_le.1
  ties := stepsAt_orderedSteps flow

/-- Two flows have the same steps in execution order exactly if they list the same steps with each
number, in the same order. -/
theorem orderedSteps_eq_iff {flow other : Flow} :
    flow.orderedSteps = other.orderedSteps ↔
      ∀ order, stepsAt order flow.steps = stepsAt order other.steps := by
  constructor
  · intro h order
    rw [← stepsAt_orderedSteps flow, h, stepsAt_orderedSteps]
  · intro h
    refine eq_of_stepsAt_eq (isExecutionOrder_orderedSteps flow).ascending
      (isExecutionOrder_orderedSteps other).ascending fun order => ?_
    rw [stepsAt_orderedSteps, stepsAt_orderedSteps, h]

/-! ## Manifests with their steps in order -/

/-- A flow with its steps listed in execution order. -/
def Flow.inOrder (flow : Flow) : Flow :=
  { flow with steps := flow.orderedSteps }

/-- A module with the steps of its flows listed in execution order. -/
def Module.inOrder (module : Module) : Module :=
  { module with flows := module.flows.map Flow.inOrder }

/-- A manifest with the steps of its flows listed in execution order. -/
def Manifest.inOrder (manifest : Manifest) : Manifest :=
  { manifest with modules := manifest.modules.map Module.inOrder }

theorem orderedSteps_inOrder (flow : Flow) : flow.inOrder.orderedSteps = flow.orderedSteps :=
  orderedSteps_eq_iff.2 (stepsAt_orderedSteps flow)

theorem flowchart_inOrder (flow : Flow) (rules : List Rule) :
    flowchart flow.inOrder rules = flowchart flow rules := by
  rw [flowchart, flowchart, flowDiagram, flowDiagram, orderedSteps_inOrder]
  rfl

theorem flowEntries_inOrder (rules : List Rule) (flow : Flow) :
    flowEntries rules flow.inOrder = flowEntries rules flow := by
  rw [flowEntries, flowEntries, orderedSteps_inOrder]
  rfl

theorem moduleEntries_inOrder (module : Module) :
    moduleEntries module.inOrder = moduleEntries module := by
  have hflows : module.inOrder.flows.flatMap (flowEntries module.rules) =
      module.flows.flatMap (flowEntries module.rules) := by
    rw [Module.inOrder, List.flatMap_map]
    exact List.flatMap_congr fun flow _ => flowEntries_inOrder module.rules flow
  have hcount : module.inOrder.flows.length = module.flows.length := List.length_map _
  have hrules : module.inOrder.rules = module.rules := rfl
  rw [moduleEntries, moduleEntries, hrules, hflows, hcount]
  rfl

theorem outline_inOrder (manifest : Manifest) : outline manifest.inOrder = outline manifest := by
  have hmodules : manifest.inOrder.modules.flatMap moduleEntries =
      manifest.modules.flatMap moduleEntries := by
    rw [Manifest.inOrder, List.flatMap_map]
    exact List.flatMap_congr fun module _ => moduleEntries_inOrder module
  have hcount : manifest.inOrder.modules.length = manifest.modules.length := List.length_map _
  rw [outline, outline, outlineEntries, outlineEntries, hmodules, hcount]
  rfl

/-! ## The lint -/

/-- The findings about steps look at identifiers and rules of the module and the flow. -/
theorem stepFindings_inOrder (module : Module) (flow : Flow) (before : List Int64)
    (steps : List Step) :
    stepFindings module.inOrder flow.inOrder before steps =
      stepFindings module flow before steps := by
  induction steps generalizing before with
  | nil => rfl
  | cons step steps ih =>
    rw [stepFindings, stepFindings, ih]
    rfl

theorem flowFindings_inOrder (module : Module) (flow : Flow) :
    flowFindings module.inOrder flow.inOrder = flowFindings module flow := by
  have hempty : flow.inOrder.steps.isEmpty = flow.steps.isEmpty :=
    flow.orderedSteps_perm.isEmpty_eq
  rw [flowFindings, flowFindings, hempty, orderedSteps_inOrder, stepFindings_inOrder]
  rfl

theorem moduleFindings_inOrder (module : Module) :
    moduleFindings module.inOrder = moduleFindings module := by
  have hids : module.inOrder.flows.map (·.id) = module.flows.map (·.id) := by
    simp [Module.inOrder, Flow.inOrder]
  have hflows : module.inOrder.flows.flatMap (flowFindings module.inOrder) =
      module.flows.flatMap (flowFindings module) := by
    have hmapped : module.inOrder.flows = module.flows.map Flow.inOrder := rfl
    rw [hmapped, List.flatMap_map]
    exact List.flatMap_congr fun flow _ => flowFindings_inOrder module flow
  rw [moduleFindings, moduleFindings, hids, hflows]
  rfl

theorem module?_inOrder (manifest : Manifest) (id : String) :
    manifest.inOrder.module? id = (manifest.module? id).map Module.inOrder := by
  rw [Manifest.module?, Manifest.module?, Manifest.inOrder, List.find?_map]
  rfl

theorem dependsOn_inOrder {manifest : Manifest} {a b : String} :
    manifest.inOrder.DependsOn a b ↔ manifest.DependsOn a b := by
  unfold Manifest.DependsOn
  rw [exists_module_iff, exists_module_iff, module?_inOrder, module?_inOrder, Option.isSome_map]
  refine and_congr_left fun _ => ?_
  constructor
  · rintro ⟨_, hmodule, hdependency⟩
    obtain ⟨module, hfound, rfl⟩ := Option.map_eq_some_iff.1 hmodule
    exact ⟨module, hfound, hdependency⟩
  · rintro ⟨module, hfound, hdependency⟩
    exact ⟨module.inOrder, by rw [hfound]; rfl, hdependency⟩

theorem externals_inOrder (manifest : Manifest) :
    (ModuleGraph.build manifest.inOrder).externals = (ModuleGraph.build manifest).externals := by
  have hmentioned : manifest.inOrder.modules.flatMap ModuleGraph.dependenciesOf =
      manifest.modules.flatMap ModuleGraph.dependenciesOf := by
    rw [Manifest.inOrder, List.flatMap_map]
    rfl
  have hknown : ∀ d : String, manifest.inOrder.modules.all (·.id != d) =
      manifest.modules.all (·.id != d) := by
    intro d
    rw [Manifest.inOrder, List.all_map]
    rfl
  simp only [ModuleGraph.build, ModuleGraph.ofModules, ModuleGraph.externalsOf, hmentioned, hknown]

theorem externalFindings_inOrder (manifest : Manifest) :
    externalFindings (ModuleGraph.build manifest.inOrder) =
      externalFindings (ModuleGraph.build manifest) := by
  rw [externalFindings, externalFindings, externals_inOrder]
  refine List.map_congr_left fun d _ => congrArg (Finding.externalDependency d) ?_
  have hmodules : (ModuleGraph.build manifest.inOrder).modules =
      manifest.modules.map Module.inOrder := rfl
  rw [hmodules, List.filter_map, List.map_map]
  rfl

theorem lint_inOrder (manifest : Manifest) : lint manifest.inOrder = lint manifest := by
  have hids : manifest.inOrder.modules.map (·.id) = manifest.modules.map (·.id) := by
    simp [Manifest.inOrder, Module.inOrder]
  have hcycles : (ModuleGraph.build manifest.inOrder).cycles =
      (ModuleGraph.build manifest).cycles :=
    cycles_congr fun _ _ => dependsOn_inOrder
  have hgraph : graphFindings manifest.inOrder = graphFindings manifest := by
    simp only [graphFindings, hids, hcycles, externals_inOrder, externalFindings_inOrder]
  have hmodules : manifest.inOrder.modules.flatMap moduleFindings =
      manifest.modules.flatMap moduleFindings := by
    rw [Manifest.inOrder, List.flatMap_map]
    exact List.flatMap_congr fun module _ => moduleFindings_inOrder module
  have hfindings : (lint manifest.inOrder).findings = (lint manifest).findings := by
    rw [lint_findings, lint_findings, hgraph, hmodules]
  exact congrArg LintReport.mk hfindings

/-! ## Manifests that list steps differently -/

/-- A flow lists the steps of another one in a different order; steps with the same number stand in
the same order in both. -/
structure Flow.Relists (flow other : Flow) : Prop where
  rest : other = { flow with steps := other.steps }
  perm : other.steps.Perm flow.steps
  ties : ∀ order, stepsAt order other.steps = stepsAt order flow.steps

/-- A module differs from another one in how the steps of flows are listed. -/
structure Module.Relists (module other : Module) : Prop where
  rest : other = { module with flows := other.flows }
  flows : List.Forall₂ Flow.Relists module.flows other.flows

/-- A manifest differs from another one in how the steps of flows are listed. -/
structure Manifest.Relists (manifest other : Manifest) : Prop where
  rest : other = { manifest with modules := other.modules }
  modules : List.Forall₂ Module.Relists manifest.modules other.modules

/-- The flowcharts of a manifest, module by module. -/
def Manifest.flowcharts (manifest : Manifest) : List (List String) :=
  manifest.modules.map fun module => module.flows.map fun flow => flowchart flow module.rules

theorem map_eq_map_of_forall₂ {α β : Type} {r : α → α → Prop} (f : α → β)
    (hf : ∀ a b, r a b → f b = f a) {as bs : List α} (h : List.Forall₂ r as bs) :
    bs.map f = as.map f := by
  induction h with
  | nil => rfl
  | cons hab _ ih => rw [List.map_cons, List.map_cons, hf _ _ hab, ih]

theorem Flow.Relists.inOrder_eq {flow other : Flow} (h : flow.Relists other) :
    other.inOrder = flow.inOrder := by
  have hsteps : other.orderedSteps = flow.orderedSteps := orderedSteps_eq_iff.2 h.ties
  rw [Flow.inOrder, Flow.inOrder, hsteps, h.rest]

theorem Module.Relists.inOrder_eq {module other : Module} (h : module.Relists other) :
    other.inOrder = module.inOrder := by
  have hflows : other.flows.map Flow.inOrder = module.flows.map Flow.inOrder :=
    map_eq_map_of_forall₂ Flow.inOrder (fun _ _ => Flow.Relists.inOrder_eq) h.flows
  rw [Module.inOrder, Module.inOrder, hflows, h.rest]

theorem Manifest.Relists.inOrder_eq {manifest other : Manifest} (h : manifest.Relists other) :
    other.inOrder = manifest.inOrder := by
  have hmodules : other.modules.map Module.inOrder = manifest.modules.map Module.inOrder :=
    map_eq_map_of_forall₂ Module.inOrder (fun _ _ => Module.Relists.inOrder_eq) h.modules
  rw [Manifest.inOrder, Manifest.inOrder, hmodules, h.rest]

theorem flowcharts_inOrder (manifest : Manifest) :
    manifest.inOrder.flowcharts = manifest.flowcharts := by
  simp only [Manifest.flowcharts, Manifest.inOrder, Module.inOrder, List.map_map,
    Function.comp_def, flowchart_inOrder]

/-- Steps are executed in one order only, whatever the order in which they are listed: by their
numbers, and steps with the same number as they are listed.  The flowcharts, the outline and the
findings of the lint are the same for all ways to list the steps that agree on the latter. -/
theorem step_listing_does_not_show :
    (∀ flow : Flow, IsExecutionOrder flow.steps flow.orderedSteps ∧
      ∀ ordered, IsExecutionOrder flow.steps ordered → ordered = flow.orderedSteps) ∧
    ∀ manifest other : Manifest, manifest.Relists other →
      other.flowcharts = manifest.flowcharts ∧ outline other = outline manifest ∧
        (lint other).diagnostics = (lint manifest).diagnostics := by
  constructor
  · intro flow
    have hflow := isExecutionOrder_orderedSteps flow
    refine ⟨hflow, fun ordered h => eq_of_stepsAt_eq h.ascending hflow.ascending fun order => ?_⟩
    rw [h.ties, hflow.ties]
  · intro manifest other h
    have horder := h.inOrder_eq
    refine ⟨?_, ?_, ?_⟩
    · rw [← flowcharts_inOrder other, horder, flowcharts_inOrder]
    · rw [← outline_inOrder other, horder, outline_inOrder]
    · rw [← lint_inOrder other, horder, lint_inOrder]

/-- A step of a delivery that has a number and a name. -/
def deliveryStep (order : Int64) (name : String) : Step :=
  ⟨none, order, name, none, ["r-9"], none⟩

/-- A manifest with one flow, given the list of its steps. -/
def deliveryManifest (steps : List Step) : Manifest where
  project := ⟨"Shop", none, none, none, none⟩
  modules := [⟨"stock", "Stock", "", [], [], [], [⟨"send", "Send", none, none, steps, none⟩], [],
    [], []⟩]
  entities := []
  dataModels := []
  glossary := .empty
  changelog := []

theorem deliveryManifest_listing_does_not_show :
    let packed := [deliveryStep 7 "pack", deliveryStep (-9223372036854775808) "pick",
      deliveryStep 9223372036854775807 "close", deliveryStep 7 "label"]
    let picked := [deliveryStep 9223372036854775807 "close", deliveryStep 7 "pack",
      deliveryStep 7 "label", deliveryStep (-9223372036854775808) "pick"]
    (deliveryManifest packed).Relists (deliveryManifest picked) ∧
      (deliveryManifest picked).flowcharts = (deliveryManifest packed).flowcharts ∧
      outline (deliveryManifest picked) = outline (deliveryManifest packed) ∧
      (lint (deliveryManifest picked)).diagnostics =
        (lint (deliveryManifest packed)).diagnostics := by
  intro packed picked
  have hties : ∀ order, stepsAt order picked = stepsAt order packed := by
    intro order
    by_cases hseven : order = 7
    · subst hseven
      decide
    · have horders : ∀ name, (deliveryStep 7 name).order ≠ order := fun _ => Ne.symm hseven
      simp only [picked, packed, stepsAt_cons, if_neg (horders _)]
      split_ifs with hlast hfirst
      · rw [← hlast] at hfirst
        exact absurd hfirst (by decide)
      all_goals rfl
  have hrelists : (deliveryManifest packed).Relists (deliveryManifest picked) :=
    ⟨rfl, .cons ⟨rfl, .cons ⟨rfl, by decide, hties⟩ .nil⟩ .nil⟩
  exact ⟨hrelists, step_listing_does_not_show.2 _ _ hrelists⟩

end ManifestAtlas
