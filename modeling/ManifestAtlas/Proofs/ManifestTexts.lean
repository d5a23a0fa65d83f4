import ManifestAtlas.Manifest.Project

/-!
# The texts in a manifest

Everything in a manifest that is free text: names, identifiers, descriptions,
places in the code and so on.  Each list below has the texts of one type, with
those of its parts.  Numbers, flags and the names of kinds are no free text.
-/

namespace ManifestAtlas

/-- The texts of a place in the code. -/
def CodeRef.texts (place : CodeRef) : List String :=
  place.file :: place.function.toList

/-- The texts of a place that may be missing. -/
def placeTexts (place : Option CodeRef) : List String :=
  place.toList.flatMap CodeRef.texts

/-- The texts of a step. -/
def Step.texts (step : Step) : List String :=
  step.name :: (step.id.toList ++ step.description.toList ++ step.rules ++
    placeTexts step.codeRef)

/-- The texts of a flow. -/
def Flow.texts (flow : Flow) : List String :=
  flow.id :: flow.name :: (flow.description.toList ++ flow.trigger.toList ++
    flow.steps.flatMap Step.texts ++ placeTexts flow.codeRef)

/-- The texts of a rule. -/
def Rule.texts (rule : Rule) : List String :=
  rule.id :: rule.name :: (rule.category.toList ++ rule.description.toList ++ rule.constraints ++
    rule.effects ++ rule.impactedFields ++ placeTexts rule.codeRef)

theorem name_mem_texts_of_findRule? {rules : List Rule} {id : String} {rule : Rule}
    (h : findRule? rules id = some rule) : rule.name ∈ rules.flatMap Rule.texts :=
  List.mem_flatMap.2 ⟨rule, List.mem_of_find?_eq_some h, by simp [Rule.texts]⟩

/-- The texts of a state. -/
def State.texts (state : State) : List String :=
  state.id :: state.name :: state.description.toList

/-- The texts of a transition. -/
def Transition.texts (t : Transition) : List String :=
  t.source :: t.target :: (t.trigger.toList ++ t.description.toList)

/-- The texts of a state machine. -/
def StateMachine.texts (machine : StateMachine) : List String :=
  machine.id :: machine.name :: (machine.description.toList ++ machine.entity.toList ++
    machine.states.flatMap State.texts ++ machine.transitions.flatMap Transition.texts)

/-- The texts of a parameter. -/
def Param.texts (param : Param) : List String :=
  param.name :: (param.type.toList ++ param.description.toList)

/-- The texts of a call. -/
def ExternalCall.texts (call : ExternalCall) : List String :=
  call.target :: call.description.toList

/-- The texts of an operation in pseudocode. -/
def Pseudocode.texts (pseudo : Pseudocode) : List String :=
  pseudo.id :: pseudo.name :: (pseudo.description.toList ++ pseudo.signature.toList ++
    pseudo.params.flatMap Param.texts ++ pseudo.returns.toList ++ placeTexts pseudo.codeRef ++
    pseudo.steps.map (·.text) ++ pseudo.calls.flatMap ExternalCall.texts)

/-- The texts of a module. -/
def Module.texts (module : Module) : List String :=
  module.id :: module.name :: module.description :: (module.tags ++ module.dependencies ++
    module.codeRefs.flatMap CodeRef.texts ++ module.flows.flatMap Flow.texts ++
    module.rules.flatMap Rule.texts ++ module.stateMachines.flatMap StateMachine.texts ++
    module.pseudocodes.flatMap Pseudocode.texts)

/-- The texts of an entity. -/
def Entity.texts (entity : Entity) : List String :=
  entity.id :: entity.name :: (entity.description.toList ++ entity.keyFields ++ entity.statuses)

/-- The texts of a field. -/
def Field.texts (field : Field) : List String :=
  field.name :: field.type :: field.description.toList

/-- The texts of a data model. -/
def DataModel.texts (model : DataModel) : List String :=
  model.id :: model.name :: (model.description.toList ++ model.fields.flatMap Field.texts)

/-- The texts of an entry of the glossary, its key included. -/
def glossaryTexts (entry : String × GlossaryEntry) : List String :=
  [entry.1, entry.2.term, entry.2.description]

/-- The texts of an entry of the changelog. -/
def ChangelogEntry.texts (entry : ChangelogEntry) : List String :=
  [entry.date, entry.kind, entry.summary]

/-- The texts for a project as a whole. -/
def ProjectMeta.texts (project : ProjectMeta) : List String :=
  project.name :: (project.version.toList ++ project.description.toList ++
    project.repository.toList ++ project.updatedAt.toList)

/-- All texts of a manifest. -/
def Manifest.texts (manifest : Manifest) : List String :=
  manifest.project.texts ++ manifest.modules.flatMap Module.texts ++
    manifest.entities.flatMap Entity.texts ++ manifest.dataModels.flatMap DataModel.texts ++
    manifest.glossary.entries.flatMap glossaryTexts ++
    manifest.changelog.flatMap ChangelogEntry.texts

end ManifestAtlas
