import ManifestAtlas.Manifest.Catalog
import ManifestAtlas.Manifest.Logic

/-!
# Modules and manifests

A manifest describes the business logic of one project: its modules, each with
its own logic, and the reference data that they share.
-/

namespace ManifestAtlas

/-- A functional area of a project.  The modules it depends on need not be in the manifest. -/
structure Module where
  id : String
  name : String
  description : String
  tags : List String
  dependencies : List String
  codeRefs : List CodeRef
  flows : List Flow
  rules : List Rule
  stateMachines : List StateMachine
  pseudocodes : List Pseudocode
  deriving DecidableEq, Repr

/-- What is known of a project as a whole. -/
structure ProjectMeta where
  name : String
  version : Option String
  description : Option String
  repository : Option String
  updatedAt : Option String
  deriving DecidableEq, Repr

/-- The business logic of a project. -/
structure Manifest where
  project : ProjectMeta
  modules : List Module
  entities : List Entity
  dataModels : List DataModel
  glossary : Glossary
  changelog : List ChangelogEntry
  deriving DecidableEq

/-- The first flow with an identifier. -/
def Module.flow? (module : Module) (id : String) : Option Flow :=
  module.flows.find? (·.id == id)

/-- The first rule with an identifier. -/
def Module.rule? (module : Module) (id : String) : Option Rule :=
  findRule? module.rules id

/-- The first state machine with an identifier. -/
def Module.stateMachine? (module : Module) (id : String) : Option StateMachine :=
  module.stateMachines.find? (·.id == id)

/-- The first module with an identifier. -/
def Manifest.module? (manifest : Manifest) (id : String) : Option Module :=
  manifest.modules.find? (·.id == id)

end ManifestAtlas
