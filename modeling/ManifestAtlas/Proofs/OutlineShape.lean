import Mathlib
import ManifestAtlas.Outline.Sections

/-!
# The shape of an outline

What the kinds of the lines of an outline depend on: which optional parts of a
manifest are shown, how many items its lists show, and how deep its pseudocode
is nested.  A shape has flags and numbers only, and no text.

Main statements: the levels of the headings depend on nothing but the lengths
of the lists of a manifest (`levels_kinds_shape`), a heading is at most one level
deeper than the heading in front of it (`isChain_headingLevels`), and there are
as many headings of each level as `Manifest.headingCount` says
(`count_headingLevels`).
-/

namespace ManifestAtlas

/-! ## Kinds of lines -/

/-- What a line of an outline is. -/
inductive LineKind where
  | heading (level : Nat)
  | bullet (depth : Nat)
  deriving DecidableEq, Repr

/-- The level of a heading. -/
def LineKind.level? : LineKind → Option Nat
  | .heading level => some level
  | .bullet _ => none

/-- The levels of the headings among some lines. -/
def levels (kinds : List LineKind) : List Nat :=
  kinds.filterMap LineKind.level?

/-- The bullet of an optional part, if it is shown. -/
def optionalKind (depth : Nat) (shown : Bool) : List LineKind :=
  if shown then [.bullet depth] else []

/-- The bullet that announces a list, and a bullet for each of its items. -/
def listKinds (count : Nat) : List LineKind :=
  .bullet 0 :: List.replicate count (.bullet 1)

/-! ## Shapes -/

/-- The shape of a step. -/
structure StepShape where
  described : Bool
  ruled : Bool
  placed : Bool

/-- The shape of a flow. -/
structure FlowShape where
  triggered : Bool
  described : Bool
  placed : Bool
  steps : List StepShape

/-- The shape of a rule. -/
structure RuleShape where
  categorized : Bool
  described : Bool
  constraints : Nat
  effects : Nat
  impacting : Bool
  placed : Bool

/-- The shape of a state machine: for each state and transition, whether it is described. -/
structure MachineShape where
  owned : Bool
  described : Bool
  states : List Bool
  transitions : List Bool

/-- The shape of an operation in pseudocode. -/
structure PseudocodeShape where
  described : Bool
  signed : Bool
  params : Nat
  returning : Bool
  placed : Bool
  indents : List UInt64
  calls : Nat

/-- The shape of a module. -/
structure ModuleShape where
  described : Bool
  places : Nat
  flows : List FlowShape
  rules : List RuleShape
  machines : List MachineShape
  pseudocodes : List PseudocodeShape

/-- The shape of a data model. -/
structure DataModelShape where
  described : Bool
  fields : Nat

/-- The shape of an outline: for each entity, whether it is described. -/
structure OutlineShape where
  versioned : Bool
  described : Bool
  hosted : Bool
  updated : Bool
  modules : List ModuleShape
  entities : List Bool
  dataModels : List DataModelShape
  terms : Nat
  changes : Nat

/-- The lines of a step. -/
def StepShape.kinds (shape : StepShape) : List LineKind :=
  .bullet 1 :: (optionalKind 2 shape.described ++ optionalKind 2 shape.ruled ++
    optionalKind 2 shape.placed)

/-- The lines of a flow. -/
def FlowShape.kinds (shape : FlowShape) : List LineKind :=
  .heading 5 :: (optionalKind 0 shape.triggered ++ optionalKind 0 shape.described ++
    optionalKind 0 shape.placed ++ .bullet 0 :: shape.steps.flatMap StepShape.kinds)

/-- The lines of a rule. -/
def RuleShape.kinds (shape : RuleShape) : List LineKind :=
  .heading 5 :: .bullet 0 :: (optionalKind 0 shape.categorized ++
    optionalKind 0 shape.described ++ listKinds shape.constraints ++ listKinds shape.effects ++
    optionalKind 0 shape.impacting ++ optionalKind 0 shape.placed)

/-- The lines of a part of a state machine, described or not. -/
def machinePartKinds (described : Bool) : List LineKind :=
  .bullet 1 :: optionalKind 2 described

/-- The lines of a state machine. -/
def MachineShape.kinds (shape : MachineShape) : List LineKind :=
  .heading 5 :: (optionalKind 0 shape.owned ++ optionalKind 0 shape.described ++
    .bullet 0 :: shape.states.flatMap machinePartKinds ++
    .bullet 0 :: shape.transitions.flatMap machinePartKinds)

/-- The line of a step of pseudocode: one level deeper than its indent, down to the deepest. -/
def indentKind (indent : UInt64) : LineKind :=
  .bullet (min (indent.toNat + 1) Lines.maxNesting)

/-- The lines of an operation in pseudocode. -/
def PseudocodeShape.kinds (shape : PseudocodeShape) : List LineKind :=
  .heading 5 :: (optionalKind 0 shape.described ++ optionalKind 0 shape.signed ++
    listKinds shape.params ++ optionalKind 0 shape.returning ++ optionalKind 0 shape.placed ++
    .bullet 0 :: shape.indents.map indentKind ++ listKinds shape.calls)

/-- The lines of a module. -/
def ModuleShape.kinds (shape : ModuleShape) : List LineKind :=
  .heading 3 :: (optionalKind 0 shape.described ++ .bullet 0 :: .bullet 0 ::
    listKinds shape.places ++ .heading 4 :: shape.flows.flatMap FlowShape.kinds ++
    .heading 4 :: shape.rules.flatMap RuleShape.kinds ++
    .heading 4 :: shape.machines.flatMap MachineShape.kinds ++
    .heading 4 :: shape.pseudocodes.flatMap PseudocodeShape.kinds)

/-- The lines of an entity, described or not. -/
def entityKinds (described : Bool) : List LineKind :=
  .heading 3 :: (optionalKind 0 described ++ [.bullet 0, .bullet 0])

/-- The lines of a data model. -/
def DataModelShape.kinds (shape : DataModelShape) : List LineKind :=
  .heading 3 :: (optionalKind 0 shape.described ++ listKinds shape.fields)

/-- The lines of an outline. -/
def OutlineShape.kinds (shape : OutlineShape) : List LineKind :=
  .heading 1 :: (optionalKind 0 shape.versioned ++ optionalKind 0 shape.described ++
    optionalKind 0 shape.hosted ++ optionalKind 0 shape.updated ++
    .heading 2 :: shape.modules.flatMap ModuleShape.kinds ++
    .heading 2 :: shape.entities.flatMap entityKinds ++
    .heading 2 :: shape.dataModels.flatMap DataModelShape.kinds ++
    .heading 2 :: List.replicate shape.terms (.bullet 0) ++
    .heading 2 :: List.replicate shape.changes (.bullet 0))

/-! ## The shape of a manifest -/

/-- Whether an optional text shows as anything. -/
def isVisible (text : Option String) : Bool :=
  (visible? text).isSome

/-- Whether an optional place shows as anything. -/
def isPlaced (place : Option CodeRef) : Bool :=
  !(displayPlace place).isEmpty

/-- The shape of a step. -/
def Step.shape (step : Step) : StepShape where
  described := isVisible step.description
  ruled := !(distinctVisible step.rules).isEmpty
  placed := isPlaced step.codeRef

/-- The shape of a flow, with its steps in execution order. -/
def Flow.shape (flow : Flow) : FlowShape where
  triggered := isVisible flow.trigger
  described := isVisible flow.description
  placed := isPlaced flow.codeRef
  steps := flow.orderedSteps.map Step.shape

/-- The shape of a rule. -/
def Rule.shape (rule : Rule) : RuleShape where
  categorized := isVisible rule.category
  described := isVisible rule.description
  constraints := (distinctVisible rule.constraints).length
  effects := (distinctVisible rule.effects).length
  impacting := !rule.impactedFields.isEmpty
  placed := isPlaced rule.codeRef

/-- The shape of a state machine. -/
def StateMachine.shape (machine : StateMachine) : MachineShape where
  owned := isVisible machine.entity
  described := isVisible machine.description
  states := machine.states.map fun state => isVisible state.description
  transitions := machine.transitions.map fun t => isVisible t.description

/-- The shape of an operation in pseudocode. -/
def Pseudocode.shape (pseudo : Pseudocode) : PseudocodeShape where
  described := isVisible pseudo.description
  signed := (nonempty? pseudo.signature).isSome
  params := pseudo.params.length
  returning := isVisible pseudo.returns
  placed := isPlaced pseudo.codeRef
  indents := pseudo.steps.map (·.indent)
  calls := pseudo.calls.length

/-- The shape of a module. -/
def Module.shape (module : Module) : ModuleShape where
  described := isVisible (some module.description)
  places := module.places.length
  flows := module.flows.map Flow.shape
  rules := module.rules.map Rule.shape
  machines := module.stateMachines.map StateMachine.shape
  pseudocodes := module.pseudocodes.map Pseudocode.shape

/-- The shape of a data model. -/
def DataModel.shape (model : DataModel) : DataModelShape where
  described := isVisible model.description
  fields := model.fields.length

/-- The shape of the outline of a manifest. -/
def Manifest.shape (manifest : Manifest) : OutlineShape where
  versioned := isVisible manifest.project.version
  described := isVisible manifest.project.description
  hosted := (nonempty? manifest.project.repository).isSome
  updated := isVisible manifest.project.updatedAt
  modules := manifest.modules.map Module.shape
  entities := manifest.entities.map fun entity => isVisible entity.description
  dataModels := manifest.dataModels.map DataModel.shape
  terms := manifest.glossary.entries.length
  changes := manifest.changelog.length

/-! ## The levels of the headings -/

/-- The levels of a section: its own heading, and those of the sections in it. -/
def sectionLevels (level : Nat) (parts : List (List Nat)) : List Nat :=
  level :: parts.flatten

/-- The levels of some sections without sections in them. -/
def plainSections (level count : Nat) : List (List Nat) :=
  List.replicate count [level]

/-- The levels of the headings of a module. -/
def Module.headingLevels (module : Module) : List Nat :=
  sectionLevels 3
    [sectionLevels 4 (plainSections 5 module.flows.length),
      sectionLevels 4 (plainSections 5 module.rules.length),
      sectionLevels 4 (plainSections 5 module.stateMachines.length),
      sectionLevels 4 (plainSections 5 module.pseudocodes.length)]

/-- The levels of the headings of an outline. -/
def Manifest.headingLevels (manifest : Manifest) : List Nat :=
  sectionLevels 1
    [sectionLevels 2 (manifest.modules.map Module.headingLevels),
      sectionLevels 2 (plainSections 3 manifest.entities.length),
      sectionLevels 2 (plainSections 3 manifest.dataModels.length),
      sectionLevels 2 [], sectionLevels 2 []]

section

variable {α : Type}

@[simp] theorem levels_nil : levels [] = [] := rfl

@[simp] theorem levels_heading (level : Nat) (kinds : List LineKind) :
    levels (.heading level :: kinds) = level :: levels kinds := rfl

@[simp] theorem levels_bullet (depth : Nat) (kinds : List LineKind) :
    levels (.bullet depth :: kinds) = levels kinds := rfl

@[simp] theorem levels_append (xs ys : List LineKind) :
    levels (xs ++ ys) = levels xs ++ levels ys :=
  List.filterMap_append

theorem levels_flatMap (f : α → List LineKind) (xs : List α) :
    levels (xs.flatMap f) = (xs.map fun x => levels (f x)).flatten := by
  induction xs with
  | nil => rfl
  | cons x xs ih => simp [ih]

/-- Items without a heading of their own add no heading. -/
theorem levels_flatMap_nil {f : α → List LineKind} (h : ∀ x, levels (f x) = []) (xs : List α) :
    levels (xs.flatMap f) = [] := by
  simp [levels_flatMap, h]

/-- Items with one heading each add as many headings. -/
theorem levels_flatMap_single {f : α → List LineKind} {level : Nat}
    (h : ∀ x, levels (f x) = [level]) (xs : List α) :
    levels (xs.flatMap f) = (plainSections level xs.length).flatten := by
  simp [levels_flatMap, h, plainSections]

@[simp] theorem levels_optionalKind (depth : Nat) (shown : Bool) :
    levels (optionalKind depth shown) = [] := by
  cases shown <;> rfl

@[simp] theorem levels_replicate (count depth : Nat) :
    levels (List.replicate count (.bullet depth)) = [] := by
  simp [levels, LineKind.level?]

@[simp] theorem levels_listKinds (count : Nat) : levels (listKinds count) = [] := by
  simp [listKinds]

end

theorem levels_kinds_step (shape : StepShape) : levels shape.kinds = [] := by
  simp [StepShape.kinds]

theorem levels_kinds_flow (shape : FlowShape) : levels shape.kinds = [5] := by
  simp [FlowShape.kinds, levels_flatMap_nil levels_kinds_step]

theorem levels_kinds_rule (shape : RuleShape) : levels shape.kinds = [5] := by
  simp [RuleShape.kinds]

theorem levels_kinds_machine (shape : MachineShape) : levels shape.kinds = [5] := by
  have hparts : ∀ described, levels (machinePartKinds described) = [] := by
    simp [machinePartKinds]
  simp [MachineShape.kinds, levels_flatMap_nil hparts]

theorem levels_kinds_pseudocode (shape : PseudocodeShape) : levels shape.kinds = [5] := by
  have hindents : levels (shape.indents.map indentKind) = [] := by
    simp [levels, indentKind, LineKind.level?]
  simp [PseudocodeShape.kinds, hindents]

theorem levels_kinds_module (module : Module) :
    levels module.shape.kinds = module.headingLevels := by
  simp [ModuleShape.kinds, Module.headingLevels, sectionLevels, Module.shape,
    levels_flatMap_single levels_kinds_flow, levels_flatMap_single levels_kinds_rule,
    levels_flatMap_single levels_kinds_machine, levels_flatMap_single levels_kinds_pseudocode]

/-- The headings of an outline are those of its sections, whatever the texts are. -/
theorem levels_kinds_shape (manifest : Manifest) :
    levels manifest.shape.kinds = manifest.headingLevels := by
  have hentities : ∀ described, levels (entityKinds described) = [3] := by
    simp [entityKinds]
  have hmodels : ∀ shape : DataModelShape, levels shape.kinds = [3] := by
    simp [DataModelShape.kinds]
  have hmodules : levels ((manifest.modules.map Module.shape).flatMap ModuleShape.kinds) =
      (manifest.modules.map Module.headingLevels).flatten := by
    simp [levels_flatMap, Function.comp_def, levels_kinds_module]
  simp only [OutlineShape.kinds, Manifest.shape, levels_heading, levels_append,
    levels_optionalKind, levels_replicate, hmodules, levels_flatMap_single hentities,
    levels_flatMap_single hmodels]
  simp [Manifest.headingLevels, sectionLevels]

/-! ## Sections nest one level at a time -/

/-- The levels of a section: nothing in it is above its heading, and no heading is more than one
level below the heading in front of it. -/
structure IsSection (level : Nat) (levels : List Nat) : Prop where
  head : levels.head? = some level
  le : ∀ n ∈ levels, level ≤ n
  chain : levels.IsChain fun a b => b ≤ a + 1

/-- Sections one level down may follow a heading of the level or of any level below. -/
theorem isChain_cons_flatten {level first : Nat} {parts : List (List Nat)} (hfirst : level ≤ first)
    (h : ∀ part ∈ parts, IsSection (level + 1) part) :
    (first :: parts.flatten).IsChain fun a b => b ≤ a + 1 := by
  induction parts generalizing first with
  | nil => exact List.isChain_singleton first
  | cons part parts ih =>
    have hpart := h part List.mem_cons_self
    have hne : first :: part ≠ [] := List.cons_ne_nil _ _
    have hlead : (first :: part).IsChain fun a b => b ≤ a + 1 := by
      cases part with
      | nil => exact List.isChain_singleton first
      | cons second part =>
        have hsecond : second = level + 1 := by simpa using hpart.head
        exact List.isChain_cons_cons.2 ⟨by omega, hpart.chain⟩
    -- The last heading of this section leads over to the next ones.
    have hlast : level ≤ (first :: part).getLast hne := by
      rcases List.mem_cons.1 (List.getLast_mem hne) with heq | hmem
      · omega
      · exact (Nat.le_succ level).trans (hpart.le _ hmem)
    obtain ⟨hover, hafter⟩ := List.isChain_cons.1
      (ih hlast fun other hother => h other (List.mem_cons_of_mem _ hother))
    rw [List.flatten_cons, ← List.cons_append]
    refine List.isChain_append.2 ⟨hlead, hafter, fun a ha b hb => ?_⟩
    rw [List.getLast?_eq_some_getLast hne, Option.mem_some_iff] at ha
    exact ha ▸ hover b hb

theorem isSection_sectionLevels {level : Nat} {parts : List (List Nat)}
    (h : ∀ part ∈ parts, IsSection (level + 1) part) :
    IsSection level (sectionLevels level parts) where
  head := rfl
  le := by
    intro n hn
    rcases List.mem_cons.1 hn with rfl | hn
    · exact le_rfl
    · obtain ⟨part, hpart, hn⟩ := List.mem_flatten.1 hn
      exact (Nat.le_succ level).trans ((h part hpart).le n hn)
  chain := isChain_cons_flatten le_rfl h

theorem isSection_plainSections (level count : Nat) :
    ∀ part ∈ plainSections level count, IsSection level part := by
  intro part hpart
  rw [List.eq_of_mem_replicate hpart]
  have hnone : ∀ part ∈ ([] : List (List Nat)), IsSection (level + 1) part := by simp
  exact isSection_sectionLevels hnone

theorem isSection_module (module : Module) : IsSection 3 module.headingLevels := by
  refine isSection_sectionLevels fun part hpart => ?_
  simp only [List.mem_cons, List.not_mem_nil, or_false] at hpart
  rcases hpart with rfl | rfl | rfl | rfl <;>
    exact isSection_sectionLevels (isSection_plainSections 5 _)

/-- A heading is at most one level deeper than the heading in front of it. -/
theorem isChain_headingLevels (manifest : Manifest) :
    manifest.headingLevels.IsChain fun a b => b ≤ a + 1 := by
  refine (isSection_sectionLevels fun part hpart => ?_).chain
  simp only [List.mem_cons, List.not_mem_nil, or_false] at hpart
  rcases hpart with rfl | rfl | rfl | rfl | rfl
  · refine isSection_sectionLevels fun part hpart => ?_
    obtain ⟨module, -, rfl⟩ := List.mem_map.1 hpart
    exact isSection_module module
  · exact isSection_sectionLevels (isSection_plainSections 3 _)
  · exact isSection_sectionLevels (isSection_plainSections 3 _)
  · exact isSection_sectionLevels (by simp)
  · exact isSection_sectionLevels (by simp)

/-! ## How many headings there are -/

/-- The number of sections of a module that describe one piece of its logic. -/
def Module.logicCount (module : Module) : Nat :=
  module.flows.length + module.rules.length + module.stateMachines.length +
    module.pseudocodes.length

/-- The number of headings of each level in an outline. -/
def Manifest.headingCount (manifest : Manifest) : Nat → Nat
  | 1 => 1
  | 2 => 5
  | 3 => manifest.modules.length + manifest.entities.length + manifest.dataModels.length
  | 4 => 4 * manifest.modules.length
  | 5 => (manifest.modules.map Module.logicCount).sum
  | _ => 0

theorem count_sectionLevels (n level : Nat) (parts : List (List Nat)) :
    (sectionLevels level parts).count n =
      (parts.map fun part => part.count n).sum + if level = n then 1 else 0 := by
  simp [sectionLevels, List.count_cons, List.count_flatten]

theorem count_plainSections (n level count : Nat) :
    ((plainSections level count).map fun part => part.count n).sum =
      if level = n then count else 0 := by
  by_cases h : level = n <;> simp [plainSections, h]

theorem count_module (n : Nat) (module : Module) :
    module.headingLevels.count n = (if 3 = n then 1 else 0) + (if 4 = n then 4 else 0) +
      if 5 = n then module.logicCount else 0 := by
  simp only [Module.headingLevels, count_sectionLevels, List.map_cons, List.map_nil,
    List.sum_cons, List.sum_nil, count_plainSections, Module.logicCount]
  split <;> split <;> split <;> omega

/-- The number of headings of each level. -/
theorem count_headingLevels (manifest : Manifest) (n : Nat) :
    manifest.headingLevels.count n = manifest.headingCount n := by
  simp only [Manifest.headingLevels, count_sectionLevels, List.map_cons, List.map_nil,
    List.map_map, Function.comp_def, List.sum_cons, List.sum_nil, count_plainSections, count_module]
  match n with
  | 1 => simp [Manifest.headingCount]
  | 2 => simp [Manifest.headingCount]
  | 3 => simp [Manifest.headingCount]; omega
  | 4 => simp [Manifest.headingCount]; omega
  | 5 => simp [Manifest.headingCount]
  | 0 => simp [Manifest.headingCount]
  | n + 6 => simp [Manifest.headingCount]

end ManifestAtlas
