import ManifestAtlas.Manifest.Project
import ManifestAtlas.Outline.Entry

/-!
# The outline of a manifest

A Markdown outline of everything in a manifest, for mind-map viewers.  Every
collection is announced with its size, even when it is empty, so that outlines
keep the same shape from one manifest to the next.
-/

namespace ManifestAtlas

/-- The names of the rules that a step applies, with the identifier for an unknown rule. -/
def outlineRules (rules : List Rule) (step : Step) : List String :=
  (distinctVisible step.rules).map fun id => ((findRule? rules id).map (·.name)).getD id

/-- The entries of a step. -/
def stepEntries (rules : List Rule) (step : Step) : List Entry :=
  let names := outlineRules rules step
  .bullet 1 s!"第{step.order}步：{escapeOutline step.name}" ::
    (fieldEntry 2 "说明" step.description ++
    (if names.isEmpty then [] else [inlineListEntry 2 "规则" names "、"]) ++
    placeEntry 2 step.codeRef)

/-- The entries of a flow, with the rules of its module. -/
def flowEntries (rules : List Rule) (flow : Flow) : List Entry :=
  .heading 5 (titled flow.name flow.id) ::
    (fieldEntry 0 "触发" flow.trigger ++ fieldEntry 0 "描述" flow.description ++
    placeEntry 0 flow.codeRef ++
    .bullet 0 (counted "步骤" flow.orderedSteps.length) ::
      flow.orderedSteps.flatMap (stepEntries rules))

/-- The entries of a rule. -/
def ruleEntries (rule : Rule) : List Entry :=
  .heading 5 (titled rule.name rule.id) ::
    .bullet 0 s!"优先级：{rule.priority.label}" ::
    (fieldEntry 0 "分类" rule.category ++ fieldEntry 0 "描述" rule.description ++
    listEntries 0 "约束" ((distinctVisible rule.constraints).map escapeOutline) ++
    listEntries 0 "效果" ((distinctVisible rule.effects).map escapeOutline) ++
    (if rule.impactedFields.isEmpty then []
      else [inlineListEntry 0 "影响字段" rule.impactedFields "、"]) ++
    placeEntry 0 rule.codeRef)

/-- The name of a state, with its role. -/
def stateTitle (state : State) : String :=
  escapeOutline state.name ++ (if state.initial then "（初始）" else "") ++
    (if state.final then "（终止）" else "")

/-- The name of the state with an identifier, or the identifier of an unknown state. -/
def StateMachine.stateName (machine : StateMachine) (id : String) : String :=
  escapeOutline (((machine.state? id).map (·.name)).getD id)

/-- What happens in a transition. -/
def transitionTitle (machine : StateMachine) (t : Transition) : String :=
  extended s!"{machine.stateName t.source} → {machine.stateName t.target}" "：" (visible? t.trigger)

/-- The entries of a state machine. -/
def stateMachineEntries (machine : StateMachine) : List Entry :=
  .heading 5 (titled machine.name machine.id) ::
    (fieldEntry 0 "实体" machine.entity ++ fieldEntry 0 "描述" machine.description ++
    .bullet 0 (counted "状态" machine.states.length) ::
      machine.states.flatMap (fun s =>
        .bullet 1 (stateTitle s) :: fieldEntry 2 "说明" s.description) ++
    .bullet 0 (counted "转换" machine.transitions.length) ::
      machine.transitions.flatMap fun t =>
        .bullet 1 (transitionTitle machine t) :: fieldEntry 2 "说明" t.description)

/-- A parameter with its type and description. -/
def paramTitle (param : Param) : String :=
  extended (extended (escapeOutline param.name) ": " (nonempty? param.type)) "，"
    (nonempty? param.description)

/-- A call with its description. -/
def callTitle (call : ExternalCall) : String :=
  extended s!"{call.kind.label}：{escapeOutline call.target}" "，" (nonempty? call.description)

/-- The bullet of a line of pseudocode, at least one level deep. -/
def pseudoStepEntry (step : PseudoStep) : Entry :=
  .bullet (step.indent.toNat + 1) s!"【{step.kind.label}】{escapeOutline step.text}"

/-- The entries of an operation in pseudocode. -/
def pseudocodeEntries (pseudo : Pseudocode) : List Entry :=
  .heading 5 (titled pseudo.name pseudo.id) ::
    (fieldEntry 0 "描述" pseudo.description ++
    (nonempty? pseudo.signature).toList.map (fun s => .bullet 0 s!"签名：{inlineCode s}") ++
    listEntries 0 "参数" (pseudo.params.map paramTitle) ++
    fieldEntry 0 "返回" pseudo.returns ++ placeEntry 0 pseudo.codeRef ++
    .bullet 0 (counted "步骤" pseudo.steps.length) :: pseudo.steps.map pseudoStepEntry ++
    listEntries 0 "外部调用" (pseudo.calls.map callTitle))

/-- The places of the code of a module, each once. -/
def Module.places (module : Module) : List String :=
  distinctVisible (module.codeRefs.map CodeRef.display)

/-- The entries of a module. -/
def moduleEntries (module : Module) : List Entry :=
  .heading 3 (titled module.name module.id) ::
    (fieldEntry 0 "描述" (some module.description) ++
    inlineListEntry 0 "标签" module.tags "、" ::
    inlineListEntry 0 "依赖" module.dependencies "、" ::
    listEntries 0 "代码" (module.places.map inlineCode) ++
    .heading 4 (counted "流程" module.flows.length) ::
      module.flows.flatMap (flowEntries module.rules) ++
    .heading 4 (counted "规则" module.rules.length) :: module.rules.flatMap ruleEntries ++
    .heading 4 (counted "状态机" module.stateMachines.length) ::
      module.stateMachines.flatMap stateMachineEntries ++
    .heading 4 (counted "伪代码" module.pseudocodes.length) ::
      module.pseudocodes.flatMap pseudocodeEntries)

/-- The entries of an entity. -/
def entityEntries (entity : Entity) : List Entry :=
  .heading 3 (titled entity.name entity.id) ::
    (fieldEntry 0 "描述" entity.description ++
    [inlineListEntry 0 "关键字段" entity.keyFields "、",
      inlineListEntry 0 "状态" entity.statuses " / "])

/-- A field of a data model with its type and description. -/
def columnTitle (field : Field) : String :=
  extended s!"{escapeOutline field.name}: {escapeOutline field.type}" "，"
    (nonempty? field.description)

/-- The entries of a data model. -/
def dataModelEntries (model : DataModel) : List Entry :=
  .heading 3 (titled model.name model.id) ::
    (fieldEntry 0 "描述" model.description ++
    listEntries 0 "字段" (model.fields.map columnTitle))

/-- The bullet of a term. -/
def glossaryBullet (entry : String × GlossaryEntry) : Entry :=
  .bullet 0 (extended (titled entry.2.term entry.1) "：" (visible? (some entry.2.description)))

/-- The bullet of an entry of the changelog. -/
def changelogBullet (entry : ChangelogEntry) : Entry :=
  .bullet 0
    s!"{escapeOutline entry.date} · {escapeOutline entry.kind} · {escapeOutline entry.summary}"

/-- The entries for the project as a whole. -/
def projectEntries (project : ProjectMeta) : List Entry :=
  .heading 1 (escapeOutline project.name) ::
    (fieldEntry 0 "版本" project.version ++ fieldEntry 0 "描述" project.description ++
    (nonempty? project.repository).toList.map (fun r => .bullet 0 s!"仓库：{inlineCode r}") ++
    fieldEntry 0 "更新时间" project.updatedAt)

/-- The entries of the outline of a manifest. -/
def outlineEntries (manifest : Manifest) : List Entry :=
  projectEntries manifest.project ++
    .heading 2 (counted "模块" manifest.modules.length) ::
      manifest.modules.flatMap moduleEntries ++
    .heading 2 (counted "实体" manifest.entities.length) ::
      manifest.entities.flatMap entityEntries ++
    .heading 2 (counted "数据模型" manifest.dataModels.length) ::
      manifest.dataModels.flatMap dataModelEntries ++
    .heading 2 (counted "术语表" manifest.glossary.entries.length) ::
      manifest.glossary.entries.map glossaryBullet ++
    .heading 2 (counted "变更记录" manifest.changelog.length) ::
      manifest.changelog.map changelogBullet

/-- The text of the outline of a manifest. -/
def outline (manifest : Manifest) : String :=
  (outlineLines (outlineEntries manifest)).text

end ManifestAtlas
