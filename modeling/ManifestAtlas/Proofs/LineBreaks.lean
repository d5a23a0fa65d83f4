import Mathlib
import ManifestAtlas.Proofs.DependencyLines
import ManifestAtlas.Proofs.FlowchartLines
import ManifestAtlas.Proofs.LabelEscapes
import ManifestAtlas.Proofs.OutlineTexts
import ManifestAtlas.Proofs.StateLines

/-!
# Carriage returns in outlines and diagrams

Escaping turns a line feed into a break token, with or without a carriage
return in front of it, but it keeps a carriage return that stands on its own.
So a text of a manifest in which every carriage return has a line feed behind
it brings no carriage return into an outline or a diagram, and one with a lone
carriage return may bring it there.

There are two groups.  The outline is settled by what its entries are woven
from.  The statements of a diagram are safe if their labels are paired and the
words in them are free of carriage returns (`FlowStatement.IsSafe`), and so are
the diagrams.

Main statement: this is the only way in which a carriage return gets into the
output (`output_returnFree_of_isPaired`).
-/

namespace ManifestAtlas

open Mermaid
open ModuleGraph (build)

/-! ## Texts without carriage returns -/

/-- A text without carriage returns. -/
def IsReturnFree (text : String) : Prop :=
  '\r' ∉ text.toList

instance (text : String) : Decidable (IsReturnFree text) :=
  inferInstanceAs (Decidable (_ ∉ _))

@[simp] theorem isReturnFree_append {a b : String} :
    IsReturnFree (a ++ b) ↔ IsReturnFree a ∧ IsReturnFree b := by
  simp [IsReturnFree]

theorem isReturnFree_intercalate {separator : String} {parts : List String}
    (hseparator : IsReturnFree separator) :
    IsReturnFree (separator.intercalate parts) ↔ ∀ part ∈ parts, IsReturnFree part := by
  induction parts with
  | nil => simp [IsReturnFree]
  | cons part parts ih =>
    cases parts with
    | nil => simp
    | cons second parts =>
      rw [String.intercalate_cons_cons, isReturnFree_append, isReturnFree_append, ih,
        and_iff_left hseparator]
      exact List.forall_mem_cons.symm

theorem isReturnFree_text {l : Lines} :
    IsReturnFree l.text ↔ ∀ line ∈ l.lines, IsReturnFree line := by
  rw [Lines.text, isReturnFree_append, isReturnFree_intercalate (by decide)]
  exact and_iff_left (by decide)

theorem isReturnFree_of_isNodeChar {text : String} (h : ∀ c ∈ text.toList, isNodeChar c = true) :
    IsReturnFree text := fun hmem => absurd (h _ hmem) (by decide)

/-- Numbers and fixed words. -/
theorem isReturnFree_of_woven {text : String} (h : Woven (fun _ => False) text) :
    IsReturnFree text :=
  h.notMem (by decide) fun _ => False.elim

/-! ## Texts in which carriage returns are paired -/

/-- Every carriage return of a text has a line feed behind it. -/
def IsPaired (text : String) : Prop :=
  PairsReturns text.toList

instance (text : String) : Decidable (IsPaired text) :=
  decidable_of_iff _ return_notMem_escapePass

theorem IsReturnFree.isPaired {text : String} (h : IsReturnFree text) : IsPaired text :=
  pairsReturns_of_notMem h

theorem IsPaired.append {a b : String} (ha : IsPaired a) (hb : IsPaired b) : IsPaired (a ++ b) := by
  rw [IsPaired, String.toList_append]
  exact PairsReturns.append ha hb

theorem isPaired_intercalate {separator : String} {parts : List String}
    (hseparator : IsPaired separator) (h : ∀ part ∈ parts, IsPaired part) :
    IsPaired (separator.intercalate parts) :=
  intercalate_of_append (by decide) IsPaired.append hseparator h

theorem isReturnFree_escapeLabel {text : String} :
    IsReturnFree (escapeLabel text) ↔ IsPaired text :=
  return_notMem_escapeLabel

/-! ## The outline -/

theorem isReturnFree_outline {manifest : Manifest} (h : ∀ t ∈ manifest.texts, IsPaired t) :
    IsReturnFree (outline manifest) := by
  refine isReturnFree_text.2 fun line hline => ?_
  obtain ⟨entry, hentry, rfl⟩ := List.mem_map.1 hline
  exact notMem_line (by decide) ((allWoven_outlineEntries h entry hentry).notMem (by decide)
    fun _ ht => return_notMem_escapeOutline.2 ht)

/-! ## Flow diagrams -/

/-- The texts of a statement that are written as they are. -/
def Mermaid.FlowStatement.words : FlowStatement → List String
  | .node id _ _ => [id]
  | .arrow source target => [source, target]
  | .dotted source target => [source, target]
  | .style name properties => [name, properties]
  | .assign ids name => name :: ids

/-- The text of a statement that is escaped. -/
def Mermaid.FlowStatement.label? : FlowStatement → Option String
  | .node _ _ label => some label
  | _ => none

/-- A statement that brings no carriage return into a diagram. -/
structure Mermaid.FlowStatement.IsSafe (statement : FlowStatement) : Prop where
  words : ∀ word ∈ statement.words, IsReturnFree word
  label : ∀ label ∈ statement.label?, IsPaired label

theorem isReturnFree_flowStatement {statement : FlowStatement} (h : statement.IsSafe) :
    IsReturnFree statement.text := by
  have hwords := h.words
  cases statement with
  | node id shape label =>
    have hlabel : IsReturnFree (escapeLabel label) := isReturnFree_escapeLabel.2 (h.label label rfl)
    have hid : IsReturnFree id := hwords id (by simp [FlowStatement.words])
    refine isReturnFree_append.2 ⟨hid, ?_⟩
    cases shape <;>
      simp only [Shape.enclose, quotedLabel, isReturnFree_append, hlabel] <;> decide
  | arrow source target =>
    simp only [FlowStatement.words, List.forall_mem_cons] at hwords
    exact isReturnFree_append.2 ⟨isReturnFree_append.2 ⟨hwords.1, by decide⟩, hwords.2.1⟩
  | dotted source target =>
    simp only [FlowStatement.words, List.forall_mem_cons] at hwords
    exact isReturnFree_append.2 ⟨isReturnFree_append.2 ⟨hwords.1, by decide⟩, hwords.2.1⟩
  | style name properties =>
    simp only [FlowStatement.words, List.forall_mem_cons] at hwords
    exact isReturnFree_append.2
      ⟨isReturnFree_append.2 ⟨isReturnFree_append.2 ⟨by decide, hwords.1⟩, by decide⟩, hwords.2.1⟩
  | assign ids name =>
    simp only [FlowStatement.words, List.forall_mem_cons] at hwords
    simp only [FlowStatement.text, isReturnFree_append]
    exact ⟨⟨⟨by decide, (isReturnFree_intercalate (by decide)).2 hwords.2⟩, by decide⟩, hwords.1⟩

/-- The lines of a header and statements. -/
theorem isReturnFree_statements {header : String} {texts : List String}
    (hheader : IsReturnFree header) (h : ∀ text ∈ texts, IsReturnFree text) :
    IsReturnFree ((Lines.headed header).statements texts).text := by
  refine isReturnFree_text.2 fun line hline => ?_
  rcases List.mem_append.1 hline with hline | hline
  · rwa [List.mem_singleton.1 hline]
  · obtain ⟨text, htext, rfl⟩ := List.mem_map.1 hline
    exact isReturnFree_append.2 ⟨by decide, h text htext⟩

theorem isReturnFree_flowDiagram {diagram : FlowDiagram}
    (h : ∀ statement ∈ diagram.statements, statement.IsSafe) : IsReturnFree diagram.text := by
  refine isReturnFree_statements (by cases diagram.direction <;> decide) fun text htext => ?_
  obtain ⟨statement, hmem, rfl⟩ := List.mem_map.1 htext
  exact isReturnFree_flowStatement (h statement hmem)

theorem isSafe_node {id label : String} {shape : Shape} (hid : IsReturnFree id)
    (hlabel : IsPaired label) : (FlowStatement.node id shape label).IsSafe where
  words := by simpa [FlowStatement.words] using hid
  label := by simpa [FlowStatement.label?] using hlabel

/-- A statement without a label is as safe as its words. -/
theorem isSafe_of_words {statement : FlowStatement} (hlabel : statement.label? = none)
    (h : ∀ word ∈ statement.words, IsReturnFree word) : statement.IsSafe where
  words := h
  label := by simp [hlabel]

theorem isSafe_arrow {source target : String} (hsource : IsReturnFree source)
    (htarget : IsReturnFree target) : (FlowStatement.arrow source target).IsSafe :=
  isSafe_of_words rfl (by simpa [FlowStatement.words] using ⟨hsource, htarget⟩)

/-! ## The dependency diagram -/

theorem isReturnFree_nodeId (node : DependencyNode) : IsReturnFree node.nodeId :=
  isReturnFree_of_isNodeChar fun _ hc => (isNodeName_nodeId node).isNodeChar hc

theorem Module.mem_texts_of_mem_dependencies {module : Module} {t : String}
    (h : t ∈ module.dependencies) : t ∈ module.texts := by
  simp [Module.texts, h]

theorem isPaired_label {manifest : Manifest} (h : ∀ t ∈ manifest.texts, IsPaired t)
    {node : DependencyNode} (hnode : node ∈ (build manifest).nodes) : IsPaired node.label := by
  have hmodules : ∀ module ∈ manifest.modules, ∀ t ∈ module.texts, IsPaired t := by
    simp only [Manifest.texts, List.forall_mem_append, List.forall_mem_flatMap, and_assoc] at h
    exact h.2.1
  rcases List.mem_append.1 hnode with hnode | hnode
  · obtain ⟨module, hmodule, rfl⟩ := List.mem_map.1 hnode
    have htexts := hmodules module hmodule
    simp only [Module.texts, List.forall_mem_cons] at htexts
    exact (htexts.2.1.append (IsReturnFree.isPaired (by decide))).append htexts.1
  · obtain ⟨id, hid, rfl⟩ := List.mem_map.1 hnode
    obtain ⟨module, hmodule, hdependency⟩ :=
      List.mem_flatMap.1 (List.mem_of_mem_filter (mem_distinct.1 hid))
    have hpaired : IsPaired id := hmodules module hmodule id
      (Module.mem_texts_of_mem_dependencies (mem_distinctVisible.1 hdependency).1)
    exact hpaired.append (IsReturnFree.isPaired (by decide))

theorem isReturnFree_dependencyDiagram {manifest : Manifest}
    (h : ∀ t ∈ manifest.texts, IsPaired t) : IsReturnFree (dependencyDiagram manifest) := by
  refine isReturnFree_flowDiagram fun statement hstatement => ?_
  rcases List.mem_append.1 hstatement with hstatement | hstatement
  · rcases List.mem_append.1 hstatement with hstatement | hstatement
    · obtain ⟨node, hnode, rfl⟩ := List.mem_map.1 hstatement
      exact isSafe_node (isReturnFree_nodeId node) (isPaired_label h hnode)
    · obtain ⟨pair, -, rfl⟩ := List.mem_map.1 hstatement
      exact isSafe_arrow (isReturnFree_nodeId pair.1) (isReturnFree_nodeId pair.2)
  · rw [externalStyle] at hstatement
    split at hstatement
    · cases hstatement
    · simp only [List.mem_cons, List.not_mem_nil, or_false] at hstatement
      rcases hstatement with rfl | rfl
      · exact isSafe_of_words rfl (by decide)
      · refine isSafe_of_words rfl (List.forall_mem_cons.2 ⟨by decide, fun id hid => ?_⟩)
        obtain ⟨node, -, rfl⟩ := List.mem_map.1 hid
        exact isReturnFree_nodeId node

/-! ## Flowcharts -/

theorem isPaired_displayPlace {place : Option CodeRef} (h : ∀ t ∈ placeTexts place, IsPaired t) :
    IsPaired (displayPlace place) := by
  cases place with
  | none => exact IsReturnFree.isPaired (by decide)
  | some place =>
    have htexts : ∀ t ∈ place.texts, IsPaired t := by simpa [placeTexts] using h
    simp only [CodeRef.texts, List.forall_mem_cons] at htexts
    refine isPaired_intercalate (IsReturnFree.isPaired (by decide)) fun part hpart => ?_
    rcases List.mem_cons.1 hpart with rfl | hpart
    · exact htexts.1
    · rcases List.mem_append.1 hpart with hpart | hpart
      · exact forall_mem_filter htexts.2 part hpart
      · obtain ⟨line, -, rfl⟩ := List.mem_map.1 (Option.toList_map .. ▸ hpart)
        exact (isReturnFree_of_woven (woven_repr line.toNat)).isPaired

section

variable {rules : List Rule}

/-- The rules that a step applies show their names or their identifiers. -/
theorem isPaired_of_mem_ruleNames {step : Step} (h : ∀ t ∈ step.texts, IsPaired t)
    (hrules : ∀ t ∈ rules.flatMap Rule.texts, IsPaired t) {name : String}
    (hname : name ∈ ruleNames rules step) : IsPaired name := by
  obtain ⟨applied, happlied, rfl⟩ := List.mem_map.1 (mem_distinct.1 hname)
  obtain ⟨id, hid, rfl⟩ := List.mem_map.1 happlied
  cases hrule : findRule? rules id with
  | none =>
    have hmem : id ∈ step.rules := (mem_distinctVisible.1 hid).1
    exact h id (by simp [Step.texts, hmem])
  | some rule => exact hrules rule.name (name_mem_texts_of_findRule? hrule)

theorem isPaired_stepLabel {step : Step} (h : ∀ t ∈ step.texts, IsPaired t)
    (hrules : ∀ t ∈ rules.flatMap Rule.texts, IsPaired t) : IsPaired (stepLabel rules step) := by
  have hnames : ∀ name ∈ ruleNames rules step, IsPaired name := fun _ =>
    isPaired_of_mem_ruleNames h hrules
  simp only [Step.texts, List.forall_mem_cons, List.forall_mem_append] at h
  obtain ⟨hname, ⟨⟨-, hdescription⟩, -⟩, -⟩ := h
  have horder : IsPaired (toString step.order) :=
    (isReturnFree_of_woven (woven_order step.order)).isPaired
  have hdot : IsPaired ". " := by decide
  refine (((horder.append hdot).append hname).append ?_).append ?_
  · cases hshown : nonempty? step.description with
    | none => exact IsReturnFree.isPaired (by decide)
    | some shown =>
      have hmem : shown ∈ (nonempty? step.description).toList := by simp [hshown]
      exact (IsReturnFree.isPaired (by decide)).append (forall_mem_filter hdescription shown hmem)
  · split
    · exact IsReturnFree.isPaired (by decide)
    · exact (IsReturnFree.isPaired (by decide)).append
        (isPaired_intercalate (IsReturnFree.isPaired (by decide)) hnames)

theorem isReturnFree_stepNode (i : Nat) : IsReturnFree (stepNode i) :=
  isReturnFree_of_woven (.append (.fixed (by decide)) (woven_repr i))

/-- Each step adds a node and an arrow from the node before it. -/
theorem isSafe_of_mem_stepStatements {previous : String} {i : Nat} {steps : List Step}
    (hprevious : IsReturnFree previous) (h : ∀ step ∈ steps, IsPaired (stepLabel rules step))
    {statement : FlowStatement} (hmem : statement ∈ stepStatements rules previous i steps) :
    statement.IsSafe := by
  induction steps generalizing previous i with
  | nil => cases hmem
  | cons step steps ih =>
    rw [List.forall_mem_cons] at h
    rw [stepStatements, List.mem_cons, List.mem_cons] at hmem
    rcases hmem with rfl | rfl | hmem
    · exact isSafe_node (isReturnFree_stepNode i) h.1
    · exact isSafe_arrow hprevious (isReturnFree_stepNode i)
    · exact ih (isReturnFree_stepNode i) h.2 hmem

theorem isSafe_of_mem_executionStatements {steps : List Step}
    (h : ∀ step ∈ steps, IsPaired (stepLabel rules step)) {statement : FlowStatement}
    (hmem : statement ∈ executionStatements rules steps) : statement.IsSafe := by
  cases steps with
  | nil =>
    simp only [executionStatements, List.mem_cons, List.not_mem_nil, or_false] at hmem
    rcases hmem with rfl | rfl
    · exact isSafe_node (by decide) (IsReturnFree.isPaired (by decide))
    · exact isSafe_arrow (by decide) (by decide)
  | cons step steps => exact isSafe_of_mem_stepStatements (by decide) h hmem

theorem isSafe_of_mem_codeStatements {title : String} {place : Option CodeRef}
    (htitle : IsReturnFree title) (h : ∀ t ∈ placeTexts place, IsPaired t)
    {statement : FlowStatement} (hmem : statement ∈ codeStatements title place) :
    statement.IsSafe := by
  simp only [codeStatements] at hmem
  split at hmem
  · cases hmem
  · simp only [List.mem_cons, List.not_mem_nil, or_false] at hmem
    rcases hmem with rfl | rfl | rfl | rfl
    · exact isSafe_node (by decide)
        ((IsReturnFree.isPaired (by decide)).append (isPaired_displayPlace h))
    · exact isSafe_of_words rfl (List.forall_mem_cons.2 ⟨htitle, by decide⟩)
    · exact isSafe_of_words rfl (by decide)
    · exact isSafe_of_words rfl (by decide)

theorem isReturnFree_flowchart {flow : Flow} (h : ∀ t ∈ flow.texts, IsPaired t)
    (hrules : ∀ t ∈ rules.flatMap Rule.texts, IsPaired t) :
    IsReturnFree (flowchart flow rules) := by
  simp only [Flow.texts, List.forall_mem_cons, List.forall_mem_append,
    List.forall_mem_flatMap] at h
  obtain ⟨-, hname, ⟨⟨-, htrigger⟩, hsteps⟩, hplace⟩ := h
  have htitle : IsReturnFree (nodeId "flow_" flow.id) :=
    isReturnFree_of_isNodeChar fun _ hc => (isWord_titleNode flow).isNodeChar hc
  have htriggerLabel : IsPaired ("触发：" ++ (visible? flow.trigger).getD "-") := by
    refine (IsReturnFree.isPaired (by decide)).append ?_
    cases hshown : visible? flow.trigger with
    | none => exact IsReturnFree.isPaired (by decide)
    | some shown => exact forall_mem_filter htrigger shown (by rw [← visible?, hshown]; simp)
  refine isReturnFree_flowDiagram fun statement hmem => ?_
  rcases List.mem_append.1 hmem with hmem | hmem
  · rcases List.mem_append.1 hmem with hmem | hmem
    · simp only [List.mem_cons, List.not_mem_nil, or_false] at hmem
      rcases hmem with rfl | rfl | rfl
      · exact isSafe_node htitle hname
      · exact isSafe_node (by decide) htriggerLabel
      · exact isSafe_arrow htitle (by decide)
    · refine isSafe_of_mem_executionStatements (fun step hstep => ?_) hmem
      exact isPaired_stepLabel (hsteps step (flow.orderedSteps_perm.mem_iff.1 hstep)) hrules
  · exact isSafe_of_mem_codeStatements htitle hplace hmem

end

/-! ## State diagrams -/

theorem isReturnFree_nameOf (table : AliasTable) (id : String) :
    IsReturnFree (table.nameOf id) :=
  isReturnFree_of_woven (.append (.fixed (by decide)) (woven_repr _))

theorem isReturnFree_declare {label name : String} (hlabel : IsPaired label)
    (hname : IsReturnFree name) : IsReturnFree (StateStatement.declare label name).text := by
  have hescaped : IsReturnFree (escapeLabel label) := isReturnFree_escapeLabel.2 hlabel
  exact isReturnFree_append.2 ⟨isReturnFree_append.2
    ⟨isReturnFree_append.2 ⟨by decide, hescaped⟩, by decide⟩, hname⟩

theorem isReturnFree_transition {source target : String} {trigger : Option String}
    (hsource : IsReturnFree source) (htarget : IsReturnFree target)
    (h : ∀ t ∈ trigger.toList, IsPaired t) :
    IsReturnFree (StateStatement.transition source target trigger).text := by
  have harrow : IsReturnFree (source ++ " --> " ++ target) :=
    isReturnFree_append.2 ⟨isReturnFree_append.2 ⟨hsource, by decide⟩, htarget⟩
  cases trigger with
  | none => exact harrow
  | some trigger =>
    have hlabel : IsReturnFree (escapeLabel trigger) :=
      isReturnFree_escapeLabel.2 (h trigger (by simp))
    exact isReturnFree_append.2 ⟨isReturnFree_append.2 ⟨harrow, by decide⟩, hlabel⟩

theorem isReturnFree_stateDiagram {machine : StateMachine}
    (h : ∀ t ∈ machine.texts, IsPaired t) : IsReturnFree (stateDiagram machine) := by
  have hname := isReturnFree_nameOf machine.aliases
  simp only [StateMachine.texts, List.forall_mem_cons, List.forall_mem_append,
    List.forall_mem_flatMap] at h
  obtain ⟨-, -, ⟨-, hstates⟩, htransitions⟩ := h
  refine isReturnFree_statements (by decide) fun text htext => ?_
  obtain ⟨statement, hmem, rfl⟩ := List.mem_map.1 htext
  simp only [StateMachine.diagram, List.mem_append, List.mem_map] at hmem
  rcases hmem with ((⟨state, hstate, rfl⟩ | hstart) | ⟨t, ht, rfl⟩) | ⟨state, -, rfl⟩
  · have htexts := hstates state hstate
    simp only [State.texts, List.forall_mem_cons] at htexts
    exact isReturnFree_declare htexts.2.1 (hname _)
  · rw [startStatements] at hstart
    split at hstart
    · rw [List.mem_singleton.1 hstart]
      exact isReturnFree_append.2 ⟨by decide, hname _⟩
    · simp only [List.mem_cons, List.not_mem_nil, or_false] at hstart
      rcases hstart with rfl | rfl <;> decide
  · have htexts := htransitions t ht
    simp only [Transition.texts, List.forall_mem_cons, List.forall_mem_append] at htexts
    exact isReturnFree_transition (hname _) (hname _) (forall_mem_filter htexts.2.2.1)
  · exact isReturnFree_append.2 ⟨hname _, by decide⟩

/-! ## Where carriage returns come from -/

/-- A carriage return gets into the output only from a text of the manifest that holds a lone one:
escaping keeps exactly those, and a code span none at all. -/
theorem output_returnFree_of_isPaired (manifest : Manifest) :
    (∀ text, IsReturnFree (escapeLabel text) ↔ IsPaired text) ∧
    (∀ text, IsReturnFree (escapeOutline text) ↔ IsPaired text) ∧
    (∀ text, IsReturnFree (inlineCode text)) ∧
    ((∀ t ∈ manifest.texts, IsPaired t) →
      IsReturnFree (outline manifest) ∧ IsReturnFree (dependencyDiagram manifest) ∧
      ∀ module ∈ manifest.modules,
        (∀ flow ∈ module.flows, IsReturnFree (flowchart flow module.rules)) ∧
        ∀ machine ∈ module.stateMachines, IsReturnFree (stateDiagram machine)) := by
  refine ⟨fun _ => isReturnFree_escapeLabel, fun _ => return_notMem_escapeOutline,
    fun text hmem => (inlineCode_breakFree hmem).1 rfl, fun h => ⟨isReturnFree_outline h,
    isReturnFree_dependencyDiagram h, fun module hmodule => ?_⟩⟩
  have htexts : ∀ t ∈ module.texts, IsPaired t := by
    simp only [Manifest.texts, List.forall_mem_append, List.forall_mem_flatMap, and_assoc] at h
    exact h.2.1 module hmodule
  simp only [Module.texts, List.forall_mem_cons, List.forall_mem_append, and_assoc] at htexts
  obtain ⟨-, -, -, -, -, -, hflows, hrules, hmachines, -⟩ := htexts
  rw [List.forall_mem_flatMap] at hflows hmachines
  exact ⟨fun flow hflow => isReturnFree_flowchart (hflows flow hflow) hrules,
    fun machine hmachine => isReturnFree_stateDiagram (hmachines machine hmachine)⟩

/-- A flow with a name. -/
def flowNamed (name : String) : Flow :=
  ⟨"f", name, none, none, [], none⟩

/-- A state machine whose state has a name. -/
def machineNamed (name : String) : StateMachine :=
  ⟨"s", "S", none, none, [⟨"i", name, none, false, false⟩], []⟩

/-- A module with a name, and with a flow and a state of this name. -/
def moduleNamed (name : String) : Module where
  id := "m"
  name := name
  description := ""
  tags := []
  dependencies := []
  codeRefs := []
  flows := [flowNamed name]
  rules := []
  stateMachines := [machineNamed name]
  pseudocodes := []

/-- A manifest with one module, which has a name. -/
def manifestNamed (name : String) : Manifest where
  project := ⟨"Shop", none, none, none, none⟩
  modules := [moduleNamed name]
  entities := []
  dataModels := []
  glossary := .empty
  changelog := []

theorem manifestNamed_pair_returnFree :
    (∀ t ∈ (manifestNamed "a\r\nb").texts, IsPaired t) ∧
    IsReturnFree (outline (manifestNamed "a\r\nb")) ∧
    IsReturnFree (dependencyDiagram (manifestNamed "a\r\nb")) ∧
    IsReturnFree (flowchart (flowNamed "a\r\nb") []) ∧
    IsReturnFree (stateDiagram (machineNamed "a\r\nb")) := by
  have hpaired : ∀ t ∈ (manifestNamed "a\r\nb").texts, IsPaired t := by decide
  obtain ⟨houtline, hdependencies, hmodules⟩ :=
    (output_returnFree_of_isPaired (manifestNamed "a\r\nb")).2.2.2 hpaired
  obtain ⟨hflows, hmachines⟩ := hmodules (moduleNamed "a\r\nb") (List.mem_singleton_self _)
  exact ⟨hpaired, houtline, hdependencies, hflows _ (List.mem_singleton_self _),
    hmachines _ (List.mem_singleton_self _)⟩

/-- A lone carriage return gets into the outline and into every kind of diagram, although a code
span shows it as a break. -/
theorem manifestNamed_lone_return_shows :
    inlineCode "a\rb" = "\x60a<br/>b\x60" ∧ escapeLabel "a\rb" = "a\rb" ∧
    escapeOutline "a\rb" = "a\rb" ∧
    ¬IsReturnFree (outline (manifestNamed "a\rb")) ∧
    ¬IsReturnFree (dependencyDiagram (manifestNamed "a\rb")) ∧
    ¬IsReturnFree (flowchart (flowNamed "a\rb") []) ∧
    ¬IsReturnFree (stateDiagram (machineNamed "a\rb")) := by
  refine ⟨by decide, by decide, by decide, fun hfree => ?_, by decide +kernel, by decide +kernel,
    by decide +kernel⟩
  have hentry : Entry.heading 3 (titled "a\rb" "m") ∈ outlineEntries (manifestNamed "a\rb") := by
    simp [outlineEntries, manifestNamed, moduleEntries, moduleNamed]
  exact absurd (isReturnFree_text.1 hfree _ (List.mem_map_of_mem hentry)) (by decide)

end ManifestAtlas
