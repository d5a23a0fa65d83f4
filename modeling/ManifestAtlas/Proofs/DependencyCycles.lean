import Mathlib
import ManifestAtlas.Proofs.DependencyWalks
import ManifestAtlas.Proofs.Lookups
import ManifestAtlas.Proofs.StrongComponents

/-!
# Dependency cycles are strong components

The first modules with their identifiers reach each other or they do not, and
the cycles list the ones that do.  There are two groups.

* The listing.  Only first modules can be on a closed walk, and an identifier
  tells which one it is.  So the components of positions that are cycles are
  components of identifiers, and `isListingOf_cyclesAmong` shows that
  `ModuleGraph.cyclesAmong` lists them in order, for whatever gives it the
  components of positions.
* What the cycles depend on.  A relation has one listing only, so manifests
  with the same dependencies between first modules have the same cycles
  (`cycles_congr`).

The main statement is `cycles_are_strong_components`.
-/

namespace ManifestAtlas

open ModuleGraph (build)

/-! ## The listing of the cycles -/

/-- Lists of positions that are the strongly connected components of a graph. -/
def ModuleGraph.HasComponents (graph : ModuleGraph) (components : List (List Nat)) : Prop :=
  AreStrongComponents graph.edges graph.nodes.length components

theorem ModuleGraph.hasComponents_strongComponents (graph : ModuleGraph) :
    graph.HasComponents (strongComponents graph.edges graph.nodes.length) :=
  areStrongComponents_strongComponents graph.edges graph.nodes.length

section

variable {graph : ModuleGraph} {components : List (List Nat)}

theorem mem_idsOf {component : List Nat} {id : String} :
    id ∈ graph.idsOf component ↔
      ∃ i ∈ component, ∃ node, graph.nodes[i]? = some node ∧ node.rawId = id := by
  rw [ModuleGraph.idsOf, (List.mergeSort_perm _ _).mem_iff, List.mem_filterMap]
  simp only [Option.map_eq_some_iff, ModuleGraph.node?]

theorem mem_cyclesAmong {cycle : List String} :
    cycle ∈ graph.cyclesAmong components ↔
      ∃ component ∈ components, graph.isCyclic component = true ∧
        cycle = graph.idsOf component := by
  rw [ModuleGraph.cyclesAmong, (List.mergeSort_perm _ _).mem_iff, List.mem_map]
  simp only [List.mem_filter, and_assoc, eq_comm]

end

section

variable {manifest : Manifest} {i : Nat} {id : String} {component : List Nat}

theorem getElem?_nodes_build {j : Nat} {module : Module}
    (h : manifest.modules[j]? = some module) :
    (build manifest).nodes[j]? = some (.module module) := by
  have hlt : j < (manifest.modules.map DependencyNode.module).length := by
    simpa using (List.getElem?_eq_some_iff.1 h).1
  show (manifest.modules.map DependencyNode.module ++ _)[j]? = _
  rw [List.getElem?_append_left hlt, List.getElem?_map, h]
  rfl

/-- Only first modules stand in a cycle: a walk that comes back from its end does not end at a later
module or at an external node. -/
theorem firstPosition?_of_mem {j : Nat} {node : DependencyNode}
    (h : IsCycleOf (build manifest).edges (build manifest).nodes.length component)
    (hj : j ∈ component) (hnode : (build manifest).nodes[j]? = some node) :
    firstPosition? manifest.modules node.rawId = some j := by
  obtain ⟨-, hwalk, -⟩ := (h.mem_iff j hj j).1 hj
  have hlt := hwalk.source_lt
  rw [getElem?_nodes_build (List.getElem?_eq_getElem hlt)] at hnode
  cases hnode
  exact hwalk.target_first hlt

theorem mem_idsOf_cycle
    (h : IsCycleOf (build manifest).edges (build manifest).nodes.length component)
    (hi : i ∈ component) :
    id ∈ (build manifest).idsOf component ↔
      ∃ j, firstPosition? manifest.modules id = some j ∧
        Walk (build manifest).edges i j ∧ Walk (build manifest).edges j i := by
  rw [mem_idsOf]
  constructor
  · rintro ⟨j, hj, node, hnode, rfl⟩
    exact ⟨j, firstPosition?_of_mem h hj hnode, ((h.mem_iff i hi j).1 hj).2⟩
  · rintro ⟨j, hfirst, hwalks⟩
    obtain ⟨module, hmodule, rfl, _⟩ := firstPosition?_eq_some.1 hfirst
    have hnode := getElem?_nodes_build hmodule
    have hlt := (List.getElem?_eq_some_iff.1 hnode).1
    exact ⟨j, (h.mem_iff i hi j).2 ⟨hlt, hwalks⟩, .module module, hnode, rfl⟩

/-- The identifiers of a cycle are different from each other. -/
theorem pairwise_idsOf_cycle
    (h : IsCycleOf (build manifest).edges (build manifest).nodes.length component) :
    ((build manifest).idsOf component).Pairwise (· < ·) := by
  refine pairwise_lt_mergeSort textLE_iff (List.pairwise_filterMap.2 ?_)
  refine h.nodup.imp_of_mem ?_
  intro j k hj hk hne a ha b hb hab
  obtain ⟨node, hnode, rfl⟩ := Option.map_eq_some_iff.1 ha
  obtain ⟨other, hother, rfl⟩ := Option.map_eq_some_iff.1 hb
  have hfirst := firstPosition?_of_mem h hj hnode
  rw [hab, firstPosition?_of_mem h hk hother] at hfirst
  exact hne (Option.some.inj hfirst).symm

/-- Every cycle has an identifier. -/
theorem exists_mem_idsOf_cycle
    (h : IsCycleOf (build manifest).edges (build manifest).nodes.length component) :
    ∃ id, id ∈ (build manifest).idsOf component := by
  obtain ⟨i, hi⟩ := List.exists_mem_of_ne_nil _ h.ne_nil
  obtain ⟨-, hwalk, -⟩ := (h.mem_iff i hi i).1 hi
  exact ⟨_, (mem_idsOf_cycle h hi).2 ⟨i, hwalk.target_first hwalk.source_lt, hwalk, hwalk⟩⟩

variable {components : List (List Nat)} {other : List Nat}

/-- A component that counts as a cycle of the graph is one. -/
theorem ModuleGraph.HasComponents.isCycleOf (h : (build manifest).HasComponents components)
    (hcomponent : component ∈ components)
    (hcyclic : (build manifest).isCyclic component = true) :
    IsCycleOf (build manifest).edges (build manifest).nodes.length component :=
  AreStrongComponents.isCycleOf h (fun _ he => source_lt_length_nodes he) hcomponent hcyclic

/-- Two identifiers stand in one cycle when their first modules reach each other. -/
theorem exists_cycleAmong_iff (h : (build manifest).HasComponents components) {a b : String} :
    (∃ cycle ∈ (build manifest).cyclesAmong components, a ∈ cycle ∧ b ∈ cycle) ↔
      (build manifest).FirstReaches a b ∧ (build manifest).FirstReaches b a := by
  constructor
  · rintro ⟨cycle, hcycle, ha, hb⟩
    obtain ⟨component, hcomponent, hcyclic, rfl⟩ := mem_cyclesAmong.1 hcycle
    have hcycleOf := h.isCycleOf hcomponent hcyclic
    obtain ⟨i, hi⟩ := List.exists_mem_of_ne_nil _ hcycleOf.ne_nil
    obtain ⟨j, hj, hij, hji⟩ := (mem_idsOf_cycle hcycleOf hi).1 ha
    obtain ⟨k, hk, hik, hki⟩ := (mem_idsOf_cycle hcycleOf hi).1 hb
    exact ⟨⟨j, k, hj, hk, hji.trans hik⟩, ⟨k, j, hk, hj, hki.trans hij⟩⟩
  · rintro ⟨⟨i, j, hi, hj, hij⟩, ⟨j', i', hj', hi', hji⟩⟩
    -- An identifier stands for its first module, so that both ways join the same two positions.
    obtain rfl : i = i' := Option.some.inj (hi.symm.trans hi')
    obtain rfl : j = j' := Option.some.inj (hj.symm.trans hj')
    obtain ⟨component, hcomponent, hcyclic, hmem⟩ :=
      AreStrongComponents.exists_cyclic h (fun _ he => source_lt_length_nodes he) (hij.trans hji)
    have hcycleOf := h.isCycleOf hcomponent hcyclic
    refine ⟨_, mem_cyclesAmong.2 ⟨component, hcomponent, hcyclic, rfl⟩, ?_, ?_⟩
    · exact (mem_idsOf_cycle hcycleOf hmem).2 ⟨i, hi, hij.trans hji, hij.trans hji⟩
    · exact (mem_idsOf_cycle hcycleOf hmem).2 ⟨j, hj, hij, hji⟩

/-- Two cycles that share an identifier are one. -/
theorem eq_of_mem_idsOf_cycle (h : (build manifest).HasComponents components)
    (hcomponent : component ∈ components) (hother : other ∈ components)
    (hcyclic : (build manifest).isCyclic component = true)
    (hcyclic' : (build manifest).isCyclic other = true)
    (hid : id ∈ (build manifest).idsOf component) (hid' : id ∈ (build manifest).idsOf other) :
    component = other := by
  obtain ⟨j, hj, node, hnode, rfl⟩ := mem_idsOf.1 hid
  obtain ⟨j', hj', node', hnode', hsame⟩ := mem_idsOf.1 hid'
  have hfirst := firstPosition?_of_mem (h.isCycleOf hcomponent hcyclic) hj hnode
  rw [← hsame, firstPosition?_of_mem (h.isCycleOf hother hcyclic') hj' hnode'] at hfirst
  obtain rfl : j' = j := Option.some.inj hfirst
  exact group_eq_of_nodup_flatten h.nodup hcomponent hother hj hj'

/-- Different cycles are listed differently. -/
theorem nodup_map_idsOf (h : (build manifest).HasComponents components) :
    ((components.filter (build manifest).isCyclic).map (build manifest).idsOf).Nodup := by
  have hdisjoint : (components.filter (build manifest).isCyclic).Pairwise List.Disjoint :=
    (List.nodup_flatten.1 h.nodup).2.filter _
  refine List.pairwise_map.2 (hdisjoint.imp_of_mem ?_)
  intro component other hmem hmem' hapart heq
  obtain ⟨hcomponent, hcyclic⟩ := List.mem_filter.1 hmem
  obtain ⟨hother, hcyclic'⟩ := List.mem_filter.1 hmem'
  obtain ⟨id, hid⟩ := exists_mem_idsOf_cycle (h.isCycleOf hcomponent hcyclic)
  obtain rfl := eq_of_mem_idsOf_cycle h hcomponent hother hcyclic hcyclic' hid (heq ▸ hid)
  obtain ⟨i, hi⟩ := List.exists_mem_of_ne_nil _ (h.isCycleOf hcomponent hcyclic).ne_nil
  exact hapart hi hi

/-- The listing of the cycles shows which first modules reach each other. -/
theorem isListingOf_cyclesAmong (h : (build manifest).HasComponents components) :
    IsListingOf
      (fun a b => (build manifest).FirstReaches a b ∧ (build manifest).FirstReaches b a)
      ((build manifest).cyclesAmong components) := by
  have hascending : ∀ cycle ∈ (build manifest).cyclesAmong components,
      cycle.Pairwise (· < ·) := by
    intro cycle hcycle
    obtain ⟨component, hcomponent, hcyclic, rfl⟩ := mem_cyclesAmong.1 hcycle
    exact pairwise_idsOf_cycle (h.isCycleOf hcomponent hcyclic)
  have hcycles : ((build manifest).cyclesAmong components).Pairwise (· < ·) :=
    pairwise_lt_mergeSort textsLE_iff (nodup_map_idsOf h)
  refine ⟨?_, hascending, hcycles, ?_, fun a b => exists_cycleAmong_iff h⟩
  · intro cycle hcycle
    obtain ⟨component, hcomponent, hcyclic, rfl⟩ := mem_cyclesAmong.1 hcycle
    obtain ⟨id, hid⟩ := exists_mem_idsOf_cycle (h.isCycleOf hcomponent hcyclic)
    exact List.ne_nil_of_mem hid
  · refine List.nodup_flatten.2 ⟨fun cycle hcycle => (hascending cycle hcycle).nodup, ?_⟩
    refine hcycles.imp_of_mem ?_
    intro cycle cycle' hcycle hcycle' hlt id hid hid'
    obtain ⟨component, hcomponent, hcyclic, rfl⟩ := mem_cyclesAmong.1 hcycle
    obtain ⟨other, hother, hcyclic', rfl⟩ := mem_cyclesAmong.1 hcycle'
    rw [eq_of_mem_idsOf_cycle h hcomponent hother hcyclic hcyclic' hid hid'] at hlt
    exact lt_irrefl _ hlt

theorem isListingOf_cycles (manifest : Manifest) :
    IsListingOf
      (fun a b => (build manifest).FirstReaches a b ∧ (build manifest).FirstReaches b a)
      (build manifest).cycles :=
  isListingOf_cyclesAmong (build manifest).hasComponents_strongComponents

/-- Whatever makes the components, the cycles are the same. -/
theorem cyclesAmong_eq_cycles (h : (build manifest).HasComponents components) :
    (build manifest).cyclesAmong components = (build manifest).cycles :=
  (isListingOf_cyclesAmong h).unique (isListingOf_cycles manifest)

theorem exists_cycle_iff {a b : String} :
    (∃ cycle ∈ (build manifest).cycles, a ∈ cycle ∧ b ∈ cycle) ↔
      (build manifest).FirstReaches a b ∧ (build manifest).FirstReaches b a :=
  (isListingOf_cycles manifest).together_iff a b

end

/-! ## What the cycles depend on -/

/-- Two manifests with the same dependencies between their modules have the same cycles. -/
theorem cycles_congr {manifest other : Manifest}
    (h : ∀ a b, manifest.DependsOn a b ↔ other.DependsOn a b) :
    (build manifest).cycles = (build other).cycles := by
  have hrel : manifest.DependsOn = other.DependsOn := by
    funext a b
    exact propext (h a b)
  have hlisting := isListingOf_cycles other
  simp only [firstReaches_iff, ← hrel] at hlisting
  simp only [← firstReaches_iff] at hlisting
  exact (isListingOf_cycles manifest).unique hlisting

/-- The modules that are the first ones with their identifiers, in order. -/
def firstModules : List Module → List Module
  | [] => []
  | module :: modules => module :: (firstModules modules).filter fun m => m.id ≠ module.id

/-- A module without its dependencies on what is not in a list of modules. -/
def Module.within (modules : List Module) (module : Module) : Module :=
  { module with dependencies := module.dependencies.filter fun id => modules.any (·.id == id) }

/-- A manifest without its later modules with an identifier used before, and without the
dependencies that name no module. -/
def Manifest.core (manifest : Manifest) : Manifest :=
  { manifest with modules := (firstModules manifest.modules).map (·.within manifest.modules) }

theorem find?_firstModules (modules : List Module) (id : String) :
    (firstModules modules).find? (·.id == id) = modules.find? (·.id == id) := by
  induction modules with
  | nil => rfl
  | cons module modules ih =>
    rw [firstModules]
    by_cases hid : module.id = id
    · rw [List.find?_cons_of_pos (by simpa using hid), List.find?_cons_of_pos (by simpa using hid)]
    · rw [List.find?_cons_of_neg (by simpa using hid), List.find?_cons_of_neg (by simpa using hid),
        List.find?_filter, ← ih]
      congr 1
      funext m
      by_cases hm : m.id = id
      · have hne : id ≠ module.id := Ne.symm hid
        simp [hm, hne]
      · simp [hm]

theorem module?_core (manifest : Manifest) (id : String) :
    manifest.core.module? id = (manifest.module? id).map (·.within manifest.modules) := by
  rw [Manifest.module?, Manifest.module?, Manifest.core, List.find?_map,
    ← find?_firstModules manifest.modules]
  rfl

theorem exists_module_iff {manifest : Manifest} {id : String} :
    (∃ module ∈ manifest.modules, module.id = id) ↔ (manifest.module? id).isSome = true := by
  rw [Manifest.module?, List.find?_isSome]
  simp

theorem dependsOn_core {manifest : Manifest} {a b : String} :
    manifest.core.DependsOn a b ↔ manifest.DependsOn a b := by
  unfold Manifest.DependsOn
  rw [exists_module_iff, exists_module_iff, module?_core, module?_core, Option.isSome_map]
  constructor
  · intro h
    obtain ⟨⟨_, hmodule, hdep, hblank⟩, htarget⟩ := h
    obtain ⟨module, hfound, rfl⟩ := Option.map_eq_some_iff.1 hmodule
    exact ⟨⟨module, hfound, (List.mem_filter.1 hdep).1, hblank⟩, htarget⟩
  · intro h
    obtain ⟨⟨module, hmodule, hdep, hblank⟩, htarget⟩ := h
    refine ⟨⟨_, Option.map_eq_some_iff.2 ⟨module, hmodule, rfl⟩, ?_, hblank⟩, htarget⟩
    obtain ⟨target, hmem, hid⟩ := exists_module_iff.2 htarget
    exact List.mem_filter.2 ⟨hdep, List.any_eq_true.2 ⟨target, hmem, by simpa using hid⟩⟩

/-- Two manifests have the same modules with the same dependencies, up to the order of the modules
and of the dependencies of each. -/
def Manifest.SameUpToOrder (manifest other : Manifest) : Prop :=
  ∃ modules, modules.Perm manifest.modules ∧
    List.Forall₂ (fun m n : Module => m.id = n.id ∧ m.dependencies.Perm n.dependencies)
      modules other.modules

theorem exists_mem_iff_of_forall₂ {α β : Type} {r : α → β → Prop} {p : α → Prop} {q : β → Prop}
    (hpq : ∀ a b, r a b → (p a ↔ q b)) {xs : List α} {ys : List β} (h : List.Forall₂ r xs ys) :
    (∃ a ∈ xs, p a) ↔ ∃ b ∈ ys, q b := by
  induction h with
  | nil => simp
  | cons hab _ ih => simp [hpq _ _ hab, ih]

theorem dependsOn_iff_of_nodup {manifest : Manifest}
    (h : (manifest.modules.map Module.id).Nodup) {a b : String} :
    manifest.DependsOn a b ↔
      (∃ module ∈ manifest.modules, module.id = a ∧ b ∈ module.dependencies ∧
        isBlankText b = false) ∧ ∃ module ∈ manifest.modules, module.id = b := by
  unfold Manifest.DependsOn
  simp only [module?_eq_some_iff_mem h, and_assoc]

/-- With distinct identifiers, what depends on what is not a matter of order. -/
theorem Manifest.SameUpToOrder.dependsOn_iff {manifest other : Manifest}
    (hsame : manifest.SameUpToOrder other) (h : (manifest.modules.map Module.id).Nodup)
    (a b : String) : manifest.DependsOn a b ↔ other.DependsOn a b := by
  obtain ⟨modules, hperm, hpaired⟩ := hsame
  have hids : modules.map Module.id = other.modules.map Module.id := by
    rw [← List.forall₂_eq_eq_eq, List.forall₂_map_left_iff, List.forall₂_map_right_iff]
    exact hpaired.imp fun _ _ h => h.1
  have hother : (other.modules.map Module.id).Nodup := by
    rw [← hids]
    exact (hperm.map Module.id).nodup_iff.2 h
  have hexists : ∀ {p q : Module → Prop},
      (∀ m n : Module, m.id = n.id ∧ m.dependencies.Perm n.dependencies → (p m ↔ q n)) →
        ((∃ m ∈ manifest.modules, p m) ↔ ∃ n ∈ other.modules, q n) := by
    intro p q hpq
    rw [← exists_mem_iff_of_forall₂ hpq hpaired]
    simp only [hperm.mem_iff]
  rw [dependsOn_iff_of_nodup h, dependsOn_iff_of_nodup hother]
  refine and_congr (hexists ?_) (hexists ?_)
  · intro m n hmn
    obtain ⟨hid, hdeps⟩ := hmn
    rw [hid, hdeps.mem_iff]
  · intro m n hmn
    obtain ⟨hid, _⟩ := hmn
    rw [hid]

/-- What names a module is not external. -/
theorem id_notMem_externals {manifest : Manifest} {module : Module}
    (h : module ∈ manifest.modules) : module.id ∉ (build manifest).externals := by
  intro hexternal
  have hunknown := (List.mem_filter.1 (mem_distinct.1 hexternal)).2
  simpa using List.all_eq_true.1 hunknown module h

/-- Whatever gives the strongly connected components of the dependency graph, the cycles are the
modules that reach each other along dependencies, each component with at least one edge listed once.
Nothing but the dependencies of first modules on modules decides them, so with distinct identifiers
they do not depend on any order.  They are the cycles that the program computes. -/
theorem cycles_are_strong_components {manifest : Manifest} {components : List (List Nat)}
    (h : (build manifest).HasComponents components) :
    (build manifest).cyclesAmong components = (build manifest).cycles ∧
    (∀ a b, (build manifest).FirstReaches a b ↔ Relation.TransGen manifest.DependsOn a b) ∧
    (∀ id, (∃ cycle ∈ (build manifest).cyclesAmong components, id ∈ cycle) ↔
      (build manifest).FirstReaches id id) ∧
    (∀ a b, a ≠ b →
      ((∃ cycle ∈ (build manifest).cyclesAmong components, a ∈ cycle ∧ b ∈ cycle) ↔
        (build manifest).FirstReaches a b ∧ (build manifest).FirstReaches b a)) ∧
    (∀ cycle ∈ (build manifest).cyclesAmong components, ∀ id ∈ cycle,
      id ∉ (build manifest).externals) ∧
    (∀ others, (build manifest.core).HasComponents others →
      (build manifest.core).cyclesAmong others = (build manifest).cyclesAmong components) ∧
    ((build manifest).cyclesAmong components).flatten.Nodup ∧
    (∀ cycle ∈ (build manifest).cyclesAmong components, cycle ≠ [] ∧ cycle.Pairwise (· < ·)) ∧
    ((build manifest).cyclesAmong components).Pairwise (· < ·) ∧
    ((manifest.modules.map Module.id).Nodup → ∀ other others, manifest.SameUpToOrder other →
      (build other).HasComponents others →
      (build other).cyclesAmong others = (build manifest).cyclesAmong components) := by
  have hlisting := isListingOf_cyclesAmong h
  refine ⟨cyclesAmong_eq_cycles h, fun a b => firstReaches_iff, ?_,
    fun a b _ => hlisting.together_iff a b, ?_, fun others hothers => ?_, hlisting.nodup,
    fun cycle hcycle => ⟨hlisting.nonempty cycle hcycle, hlisting.ascending cycle hcycle⟩,
    hlisting.groups_ascending, fun hnodup other others hsame hothers => ?_⟩
  · intro id
    simpa using hlisting.together_iff id id
  · intro cycle hcycle id hid hexternal
    obtain ⟨⟨i, _, hi, _⟩, _⟩ := (hlisting.together_iff id id).1 ⟨cycle, hcycle, hid, hid⟩
    obtain ⟨module, hmodule, rfl, _⟩ := firstPosition?_eq_some.1 hi
    exact id_notMem_externals (List.mem_of_getElem? hmodule) hexternal
  · rw [cyclesAmong_eq_cycles h, cyclesAmong_eq_cycles hothers]
    exact cycles_congr fun a b => dependsOn_core
  · rw [cyclesAmong_eq_cycles h, cyclesAmong_eq_cycles hothers]
    exact (cycles_congr (hsame.dependsOn_iff hnodup)).symm

/-- A module that only has dependencies. -/
def bareModule (id : String) (dependencies : List String) : Module where
  id := id
  name := id
  description := ""
  tags := []
  dependencies := dependencies
  codeRefs := []
  flows := []
  rules := []
  stateMachines := []
  pseudocodes := []

/-- Two modules that depend on each other, one that depends on itself, and one that no other one
depends on. -/
def pairedManifest : Manifest where
  project := ⟨"Shop", none, none, none, none⟩
  modules := [bareModule "b" ["a"], bareModule "c" ["c"], bareModule "d" ["a"],
    bareModule "a" ["b"]]
  entities := []
  dataModels := []
  glossary := .empty
  changelog := []

/-- Of the three components, two are cycles. -/
theorem pairedManifest_has_two_cycles :
    (build pairedManifest).HasComponents [[0, 3], [1], [2]] ∧
      (build pairedManifest).cyclesAmong [[0, 3], [1], [2]] = [["a", "b"], ["c"]] ∧
      (build pairedManifest).cycles = [["a", "b"], ["c"]] ∧
      Relation.TransGen pairedManifest.DependsOn "b" "a" := by
  have hcomponents : (build pairedManifest).HasComponents [[0, 3], [1], [2]] := by
    have hcomputed : strongComponents (build pairedManifest).edges
        (build pairedManifest).nodes.length = [[0, 3], [1], [2]] := by cbv
    rw [← hcomputed]
    exact (build pairedManifest).hasComponents_strongComponents
  have hcycles : (build pairedManifest).cyclesAmong [[0, 3], [1], [2]] =
      [["a", "b"], ["c"]] := by cbv
  obtain ⟨hsame, hreaches, -, htogether, -⟩ := cycles_are_strong_components hcomponents
  refine ⟨hcomponents, hcycles, hsame.symm.trans hcycles, (hreaches "b" "a").1 ?_⟩
  have hjoined := (htogether "b" "a" (by decide)).1
  rw [hcycles] at hjoined
  exact (hjoined ⟨["a", "b"], by decide, by decide, by decide⟩).1

end ManifestAtlas
