import ManifestAtlas.Json.Format
import ManifestAtlas.Manifest.Project

/-!
# The JSON form of a manifest

One format for each type of the manifest, with its keys, its defaults and the
order of its fields.  Texts and numbers of the manifest are required, except
where the type says otherwise; lists default to the empty one.
-/

namespace ManifestAtlas.Schema

open Json

/-- Places in source code. -/
def codeRef : RecordFormat CodeRef where
  name := "CodeRef"
  types := [String, Option String, Option UInt32]
  fields := .required "file" .text <| .optional "function" .text <| .optional "line" .uint32 .nil
  make := fun (file, function, line, ()) => ⟨file, function, line⟩
  parts := fun r => (r.file, r.function, r.line, ())

/-- Priorities by name. -/
def priorityFormat : Format Priority :=
  .choice ([.high, .medium, .low].map fun p => (p.name, p)) Priority.name

/-- The codec of priorities. -/
def priority : Codec Priority :=
  priorityFormat.codec

/-- Kinds of pseudocode lines by name. -/
def pseudoStepKindFormat : Format PseudoStepKind :=
  .choice
    ([.comment, .action, .condition, .loop, .call, .return, .error].map fun k => (k.name, k))
    PseudoStepKind.name

/-- The codec of kinds of pseudocode lines. -/
def pseudoStepKind : Codec PseudoStepKind :=
  pseudoStepKindFormat.codec

/-- Kinds of calls by name. -/
def callKindFormat : Format CallKind :=
  .choice ([.api, .db, .internal, .schedule].map fun k => (k.name, k)) CallKind.name

/-- The codec of kinds of calls. -/
def callKind : Codec CallKind :=
  callKindFormat.codec

/-- Rules. -/
def rule : RecordFormat Rule where
  name := "Rule"
  types := [String, String, Priority, Option String, Option String, List String, List String,
    List String, Option CodeRef]
  fields := .required "id" .text <| .required "name" .text <|
    .defaulted "priority" priorityFormat .medium <| .optional "category" .text <|
    .optional "description" .text <| .listed "constraints" .text <| .listed "effects" .text <|
    .listed "impactedFields" .text <| .optional "codeRef" codeRef.format .nil
  make :=
    fun (id, name, priority, category, description, constraints, effects, fields, place, ()) =>
      ⟨id, name, priority, category, description, constraints, effects, fields, place⟩
  parts := fun r => (r.id, r.name, r.priority, r.category, r.description, r.constraints, r.effects,
    r.impactedFields, r.codeRef, ())

/-- Steps of flows. -/
def step : RecordFormat Step where
  name := "Step"
  types := [Option String, Int64, String, Option String, List String, Option CodeRef]
  fields := .optional "id" .text <| .required "order" .int64 <| .required "name" .text <|
    .optional "description" .text <| .listed "rules" .text <|
    .optional "codeRef" codeRef.format .nil
  make := fun (id, order, name, description, rules, place, ()) =>
    ⟨id, order, name, description, rules, place⟩
  parts := fun r => (r.id, r.order, r.name, r.description, r.rules, r.codeRef, ())

/-- Flows. -/
def flow : RecordFormat Flow where
  name := "Flow"
  types := [String, String, Option String, Option String, List Step, Option CodeRef]
  fields := .required "id" .text <| .required "name" .text <| .optional "description" .text <|
    .optional "trigger" .text <| .listed "steps" step.format <|
    .optional "codeRef" codeRef.format .nil
  make := fun (id, name, description, trigger, steps, place, ()) =>
    ⟨id, name, description, trigger, steps, place⟩
  parts := fun r => (r.id, r.name, r.description, r.trigger, r.steps, r.codeRef, ())

/-- States. -/
def state : RecordFormat State where
  name := "State"
  types := [String, String, Option String, Bool, Bool]
  fields := .required "id" .text <| .required "name" .text <| .optional "description" .text <|
    .defaulted "initial" .boolean false <| .defaulted "final" .boolean false .nil
  make := fun (id, name, description, initial, final, ()) => ⟨id, name, description, initial, final⟩
  parts := fun r => (r.id, r.name, r.description, r.initial, r.final, ())

/-- Transitions. -/
def transition : RecordFormat Transition where
  name := "Transition"
  types := [String, String, Option String, Option String]
  fields := .required "from" .text <| .required "to" .text <| .optional "trigger" .text <|
    .optional "description" .text .nil
  make := fun (source, target, trigger, description, ()) => ⟨source, target, trigger, description⟩
  parts := fun r => (r.source, r.target, r.trigger, r.description, ())

/-- State machines. -/
def stateMachine : RecordFormat StateMachine where
  name := "StateMachine"
  types := [String, String, Option String, Option String, List State, List Transition]
  fields := .required "id" .text <| .required "name" .text <| .optional "description" .text <|
    .optional "entity" .text <| .listed "states" state.format <|
    .listed "transitions" transition.format .nil
  make := fun (id, name, description, entity, states, transitions, ()) =>
    ⟨id, name, description, entity, states, transitions⟩
  parts := fun r => (r.id, r.name, r.description, r.entity, r.states, r.transitions, ())

/-- Parameters of operations. -/
def param : RecordFormat Param where
  name := "Param"
  types := [String, Option String, Option String]
  fields := .required "name" .text <| .optional "type" .text <| .optional "description" .text .nil
  make := fun (name, type, description, ()) => ⟨name, type, description⟩
  parts := fun r => (r.name, r.type, r.description, ())

/-- Lines of pseudocode. -/
def pseudoStep : RecordFormat PseudoStep where
  name := "PseudoStep"
  types := [UInt64, PseudoStepKind, String]
  fields := .defaulted "indent" .uint64 0 <| .defaulted "type" pseudoStepKindFormat .action <|
    .required "text" .text .nil
  make := fun (indent, kind, text, ()) => ⟨indent, kind, text⟩
  parts := fun r => (r.indent, r.kind, r.text, ())

/-- Calls to the outside. -/
def externalCall : RecordFormat ExternalCall where
  name := "ExternalCall"
  types := [CallKind, String, Option String]
  fields := .required "type" callKindFormat <| .required "target" .text <|
    .optional "description" .text .nil
  make := fun (kind, target, description, ()) => ⟨kind, target, description⟩
  parts := fun r => (r.kind, r.target, r.description, ())

/-- Operations in pseudocode. -/
def pseudocode : RecordFormat Pseudocode where
  name := "Pseudocode"
  types := [String, String, Option String, Option String, List Param, Option String,
    Option CodeRef, List PseudoStep, List ExternalCall]
  fields := .required "id" .text <| .required "name" .text <| .optional "description" .text <|
    .optional "signature" .text <| .listed "params" param.format <| .optional "returns" .text <|
    .optional "codeRef" codeRef.format <| .listed "steps" pseudoStep.format <|
    .listed "calls" externalCall.format .nil
  make := fun (id, name, description, signature, params, returns, place, steps, calls, ()) =>
    ⟨id, name, description, signature, params, returns, place, steps, calls⟩
  parts := fun r => (r.id, r.name, r.description, r.signature, r.params, r.returns, r.codeRef,
    r.steps, r.calls, ())

/-- Modules. -/
def module : RecordFormat Module where
  name := "Module"
  types := [String, String, String, List String, List String, List CodeRef, List Flow, List Rule,
    List StateMachine, List Pseudocode]
  fields := .required "id" .text <| .required "name" .text <| .defaulted "description" .text "" <|
    .listed "tags" .text <| .listed "dependencies" .text <| .listed "codeRefs" codeRef.format <|
    .listed "flows" flow.format <| .listed "rules" rule.format <|
    .listed "stateMachines" stateMachine.format <| .listed "pseudocodes" pseudocode.format .nil
  make := fun (id, name, description, tags, dependencies, places, flows, rules, machines,
      pseudocodes, ()) =>
    ⟨id, name, description, tags, dependencies, places, flows, rules, machines, pseudocodes⟩
  parts := fun r => (r.id, r.name, r.description, r.tags, r.dependencies, r.codeRefs, r.flows,
    r.rules, r.stateMachines, r.pseudocodes, ())

/-- Entities. -/
def entity : RecordFormat Entity where
  name := "Entity"
  types := [String, String, Option String, List String, List String]
  fields := .required "id" .text <| .required "name" .text <| .optional "description" .text <|
    .listed "keyFields" .text <| .listed "statuses" .text .nil
  make := fun (id, name, description, keyFields, statuses, ()) =>
    ⟨id, name, description, keyFields, statuses⟩
  parts := fun r => (r.id, r.name, r.description, r.keyFields, r.statuses, ())

/-- Fields of data models. -/
def field : RecordFormat Field where
  name := "Field"
  types := [String, String, Option String]
  fields := .required "name" .text <| .required "type" .text <| .optional "description" .text .nil
  make := fun (name, type, description, ()) => ⟨name, type, description⟩
  parts := fun r => (r.name, r.type, r.description, ())

/-- Data models. -/
def dataModel : RecordFormat DataModel where
  name := "DataModel"
  types := [String, String, Option String, List Field]
  fields := .required "id" .text <| .required "name" .text <| .optional "description" .text <|
    .listed "fields" field.format .nil
  make := fun (id, name, description, fields, ()) => ⟨id, name, description, fields⟩
  parts := fun r => (r.id, r.name, r.description, r.fields, ())

/-- Entries of the glossary. -/
def glossaryEntry : RecordFormat GlossaryEntry where
  name := "GlossaryEntry"
  types := [String, String]
  fields := .required "term" .text <| .defaulted "description" .text "" .nil
  make := fun (term, description, ()) => ⟨term, description⟩
  parts := fun r => (r.term, r.description, ())

/-- The glossary, as an object.  Of several entries under one key the last one counts. -/
def glossary : Format Glossary :=
  .keyed ⟨.empty, Glossary.insert, Glossary.entries⟩ glossaryEntry.format

/-- Entries of the changelog. -/
def changelogEntry : RecordFormat ChangelogEntry where
  name := "ChangelogEntry"
  types := [String, String, String]
  fields := .required "date" .text <| .required "type" .text <| .required "summary" .text .nil
  make := fun (date, kind, summary, ()) => ⟨date, kind, summary⟩
  parts := fun r => (r.date, r.kind, r.summary, ())

/-- What is known of a project. -/
def projectMeta : RecordFormat ProjectMeta where
  name := "ProjectMeta"
  types := [String, Option String, Option String, Option String, Option String]
  fields := .required "name" .text <| .optional "version" .text <|
    .optional "description" .text <| .optional "repository" .text <|
    .optional "updatedAt" .text .nil
  make := fun (name, version, description, repository, updatedAt, ()) =>
    ⟨name, version, description, repository, updatedAt⟩
  parts := fun r => (r.name, r.version, r.description, r.repository, r.updatedAt, ())

/-- Manifests. -/
def manifest : RecordFormat Manifest where
  name := "Manifest"
  types := [ProjectMeta, List Module, List Entity, List DataModel, Glossary, List ChangelogEntry]
  fields := .required "project" projectMeta.format <| .listed "modules" module.format <|
    .listed "entities" entity.format <| .listed "dataModels" dataModel.format <|
    .defaulted "glossary" glossary .empty <| .listed "changelog" changelogEntry.format .nil
  make := fun (project, modules, entities, dataModels, glossary, changelog, ()) =>
    ⟨project, modules, entities, dataModels, glossary, changelog⟩
  parts := fun r =>
    (r.project, r.modules, r.entities, r.dataModels, r.glossary, r.changelog, ())

end ManifestAtlas.Schema
