import Mathlib
import ManifestAtlas.Proofs.FlowchartLines

/-!
# A flowchart as one path

The text of a flowchart, read back line by line, is one path: from the title
over the trigger through the steps in execution order.  The place of the code
hangs off the title and is not on the path.  What names, descriptions, triggers
and rules hold makes no difference to that (`flowchart_is_one_path`).

There are two groups.

* The recursion over the steps.  It carries the node in front of the next step,
  and each lemma says what that gives: names that are words, one node for each
  step (`node?_stepStatements`), arrows from each node to the next one
  (`solid?_stepStatements`), and no arrow before its nodes
  (`declaresFrom_stepStatements`).
* The whole text, put together from the title, the trigger, the steps and the
  place of the code (`readFlow_flowchart`).
-/

namespace ManifestAtlas

open Mermaid

/-! ## The statements as they are read -/

/-- The neighbours in a list, from the front to the end. -/
def consecutive (names : List String) : List (String × String) :=
  names.zip names.tail

theorem consecutive_cons (a b : String) (names : List String) :
    consecutive (a :: b :: names) = (a, b) :: consecutive (b :: names) :=
  rfl

/-- The statements of a text, as they are read. -/
def meanings (statements : List FlowStatement) : List FlowLine :=
  statements.map FlowStatement.meaning

section

variable {rules : List Rule} {steps : List Step} {previous : String} {i : Nat}

/-- The recursion over the steps keeps the names in order. -/
theorem isNamed_of_mem_stepStatements (hprevious : IsWord previous.toList) {s : FlowStatement}
    (h : s ∈ stepStatements rules previous i steps) : s.IsNamed := by
  induction steps generalizing previous i with
  | nil => cases h
  | cons step steps ih =>
    rw [stepStatements, List.mem_cons, List.mem_cons] at h
    rcases h with rfl | rfl | h
    · exact isWord_stepNode i
    · exact ⟨hprevious, isWord_stepNode i⟩
    · exact ih (isWord_stepNode i) h

theorem node?_stepStatements :
    (meanings (stepStatements rules previous i steps)).filterMap FlowLine.node? =
      (steps.zipIdx i).map fun (step, k) => (s!"step_{k}", escapeLabel (stepLabel rules step)) := by
  induction steps generalizing previous i with
  | nil => rfl
  | cons step steps ih =>
    rw [stepStatements, List.zipIdx_cons, List.map_cons]
    exact congrArg _ ih

/-- The arrows of the steps go on from the node in front of them, one step after the other. -/
theorem solid?_stepStatements :
    (meanings (stepStatements rules previous i steps)).filterMap FlowLine.solid? =
      consecutive (previous :: (steps.zipIdx i).map fun (_, k) => s!"step_{k}") := by
  induction steps generalizing previous i with
  | nil => rfl
  | cons step steps ih =>
    rw [stepStatements, List.zipIdx_cons, List.map_cons, consecutive_cons]
    exact congrArg _ ih

theorem dotted?_stepStatements :
    (meanings (stepStatements rules previous i steps)).filterMap FlowLine.dotted? = [] := by
  induction steps generalizing previous i with
  | nil => rfl
  | cons step steps ih => exact ih

/-- Every step is declared before the arrows to it and from it. -/
theorem declaresFrom_stepStatements {known : List String} (h : previous ∈ known) :
    FlowLine.DeclaresFrom known (meanings (stepStatements rules previous i steps)) := by
  induction steps generalizing previous i known with
  | nil => trivial
  | cons step steps ih =>
    have hnode : stepNode i ∈ known ++ [stepNode i] := List.mem_concat_self
    have hends : ∀ name ∈ [previous, stepNode i], name ∈ known ++ [stepNode i] := by
      intro name hname
      rcases List.mem_cons.1 hname with rfl | hname
      · exact List.mem_append_left _ h
      · rw [List.mem_singleton.1 hname]
        exact hnode
    refine ⟨by simp [FlowStatement.meaning, FlowLine.ends], hends, ?_⟩
    exact ih (List.mem_append_left _ hnode)

end

section

variable {flow : Flow} {rules : List Rule} {steps : List Step}

theorem isNamed_of_mem_executionStatements {s : FlowStatement}
    (h : s ∈ executionStatements rules steps) : s.IsNamed := by
  have htrigger : IsWord triggerNode.toList := isWord_of_all (by decide) (by decide)
  have hplaceholder : IsWord noStepsNode.toList := isWord_of_all (by decide) (by decide)
  cases steps with
  | nil =>
    rw [executionStatements, List.mem_cons, List.mem_singleton] at h
    rcases h with rfl | rfl
    · exact hplaceholder
    · exact ⟨htrigger, hplaceholder⟩
  | cons step steps => exact isNamed_of_mem_stepStatements htrigger h

theorem isNamed_of_mem_codeStatements {s : FlowStatement}
    (h : s ∈ codeStatements flow.titleNode flow.codeRef) : s.IsNamed := by
  have hcode : IsWord codeNode.toList := isWord_of_all (by decide) (by decide)
  have haux : IsWord "aux".toList := isWord_of_all (by decide) (by decide)
  simp only [codeStatements] at h
  split at h
  · cases h
  · simp only [List.mem_cons, List.not_mem_nil, or_false] at h
    rcases h with rfl | rfl | rfl | rfl
    · exact hcode
    · exact ⟨isWord_titleNode flow, hcode⟩
    · exact haux
    · exact ⟨codeNode, [], rfl, hcode⟩

/-- All names in the statements of a flowchart are words. -/
theorem isNamed_of_mem_flowDiagram {s : FlowStatement}
    (h : s ∈ (flowDiagram flow rules).statements) : s.IsNamed := by
  have htitle := isWord_titleNode flow
  have htrigger : IsWord triggerNode.toList := isWord_of_all (by decide) (by decide)
  rw [flowDiagram, List.mem_append, List.mem_append] at h
  rcases h with (h | h) | h
  · simp only [List.mem_cons, List.not_mem_nil, or_false] at h
    rcases h with rfl | rfl | rfl
    · exact htitle
    · exact htrigger
    · exact ⟨htitle, htrigger⟩
  · exact isNamed_of_mem_executionStatements h
  · exact isNamed_of_mem_codeStatements h

theorem meanings_flowDiagram (flow : Flow) (rules : List Rule) :
    meanings (flowDiagram flow rules).statements =
      [.node flow.titleNode (escapeLabel flow.name),
        .node "trigger" (escapeLabel flow.triggerLabel), .solid flow.titleNode "trigger"] ++
      meanings (executionStatements rules flow.orderedSteps) ++
      meanings (codeStatements flow.titleNode flow.codeRef) := by
  simp only [meanings, flowDiagram, List.map_append, List.map_cons, List.map_nil, triggerText]
  rfl

/-- Read back line by line, the text says what its statements say. -/
theorem readFlow_flowchart (flow : Flow) (rules : List Rule) :
    readFlow (flowchart flow rules) =
      [.other, .node flow.titleNode (escapeLabel flow.name),
        .node "trigger" (escapeLabel flow.triggerLabel), .solid flow.titleNode "trigger"] ++
      meanings (executionStatements rules flow.orderedSteps) ++
      meanings (codeStatements flow.titleNode flow.codeRef) ++ [.other] := by
  have hlines : (flowLines flow rules).map readFlowLine =
      meanings (flowDiagram flow rules).statements := by
    rw [← map_statementLine_flow, List.map_map]
    exact List.map_congr_left fun s hs => readFlowLine_statement (isNamed_of_mem_flowDiagram hs)
  have hheader : readFlowLine "flowchart TD" = .other := by decide
  have hlast : readFlowLine "" = .other := by decide
  rw [readFlow, splitLines_flowchart, List.cons_append, List.map_cons, List.map_append, hlines,
    hheader, List.map_singleton, hlast, meanings_flowDiagram]
  rfl

theorem filterMap_flowchart {β : Type} {read : FlowLine → Option β} (hother : read .other = none)
    (flow : Flow) (rules : List Rule) :
    (readFlow (flowchart flow rules)).filterMap read =
      [FlowLine.node flow.titleNode (escapeLabel flow.name),
        .node "trigger" (escapeLabel flow.triggerLabel),
        .solid flow.titleNode "trigger"].filterMap read ++
      (meanings (executionStatements rules flow.orderedSteps)).filterMap read ++
      (meanings (codeStatements flow.titleNode flow.codeRef)).filterMap read := by
  rw [readFlow_flowchart, List.filterMap_append, List.filterMap_append,
    List.filterMap_append, List.filterMap_cons_none hother, List.filterMap_cons_none hother,
    List.filterMap_nil, List.append_nil]

theorem node?_execution :
    (meanings (executionStatements rules steps)).filterMap FlowLine.node? =
      executionNodes rules steps := by
  cases steps with
  | nil =>
    have hlabel : escapeLabel "暂无步骤" = "暂无步骤" := by decide
    simp [executionStatements, executionNodes, meanings, FlowStatement.meaning, FlowLine.node?,
      noStepsNode, hlabel]
  | cons step steps =>
    rw [executionNodes, if_neg (List.cons_ne_nil _ _)]
    exact node?_stepStatements

theorem solid?_execution :
    (meanings (executionStatements rules steps)).filterMap FlowLine.solid? =
      consecutive ("trigger" :: (executionNodes rules steps).map Prod.fst) := by
  cases steps with
  | nil => rfl
  | cons step steps =>
    rw [executionNodes, if_neg (List.cons_ne_nil _ _), List.map_map]
    exact solid?_stepStatements

theorem dotted?_execution :
    (meanings (executionStatements rules steps)).filterMap FlowLine.dotted? = [] := by
  cases steps with
  | nil => rfl
  | cons step steps => exact dotted?_stepStatements

theorem declaresFrom_execution {known : List String} (h : "trigger" ∈ known) :
    FlowLine.DeclaresFrom known (meanings (executionStatements rules steps)) := by
  cases steps with
  | nil =>
    refine ⟨by simp [FlowStatement.meaning, FlowLine.ends], ?_, trivial⟩
    simp [FlowStatement.meaning, FlowLine.ends, FlowLine.names, FlowLine.node?, triggerNode, h]
  | cons step steps => exact declaresFrom_stepStatements h

theorem meanings_codeStatements :
    meanings (codeStatements flow.titleNode flow.codeRef) =
      if displayPlace flow.codeRef = "" then []
      else
        [.node "code_ref" (escapeLabel ("代码：" ++ displayPlace flow.codeRef)),
          .dotted flow.titleNode "code_ref", .other, .other] := by
  by_cases hcode : displayPlace flow.codeRef = ""
  · simp [codeStatements, hcode, meanings]
  · simp [codeStatements, hcode, meanings, FlowStatement.meaning, codeNode]

theorem node?_code :
    (meanings (codeStatements flow.titleNode flow.codeRef)).filterMap FlowLine.node? =
      codeNodes flow := by
  rw [meanings_codeStatements, codeNodes]
  split <;> rfl

theorem solid?_code :
    (meanings (codeStatements flow.titleNode flow.codeRef)).filterMap FlowLine.solid? = [] := by
  rw [meanings_codeStatements]
  split <;> rfl

theorem dotted?_code :
    (meanings (codeStatements flow.titleNode flow.codeRef)).filterMap FlowLine.dotted? =
      (codeNodes flow).map fun node => (flow.titleNode, node.1) := by
  rw [meanings_codeStatements, codeNodes]
  split <;> rfl

theorem declaresFrom_code {known : List String} (h : flow.titleNode ∈ known) :
    FlowLine.DeclaresFrom known (meanings (codeStatements flow.titleNode flow.codeRef)) := by
  rw [meanings_codeStatements]
  split
  · trivial
  · simp [FlowLine.DeclaresFrom, FlowLine.ends, FlowLine.names, FlowLine.node?, h]

/-- No arrow of a flowchart stands before the nodes that it joins. -/
theorem declaresFrom_flowchart (flow : Flow) (rules : List Rule) :
    FlowLine.DeclaresFrom [] (readFlow (flowchart flow rules)) := by
  have hfront : FlowLine.DeclaresFrom []
      [.other, .node flow.titleNode (escapeLabel flow.name),
        .node "trigger" (escapeLabel flow.triggerLabel), .solid flow.titleNode "trigger"] := by
    simp [FlowLine.DeclaresFrom, FlowLine.ends, FlowLine.names, FlowLine.node?]
  have hlast : ∀ known, FlowLine.DeclaresFrom known [.other] := fun known => by
    simp [FlowLine.DeclaresFrom, FlowLine.ends]
  rw [readFlow_flowchart, FlowLine.declaresFrom_append, FlowLine.declaresFrom_append,
    FlowLine.declaresFrom_append]
  refine ⟨⟨⟨hfront, declaresFrom_execution ?_⟩, declaresFrom_code ?_⟩, hlast _⟩
  · simp [FlowLine.names, FlowLine.node?]
  · simp [FlowLine.names, FlowLine.node?]

end

/-! ## The flowchart as one path -/

/-- A flowchart is one path.  Its lines are the expected ones.  Its nodes have different names, all
of them words, and no label holds a double quote or a line feed.  Read back line by line, the text
has these nodes with these labels and no others; the solid arrows join each node of the path to the
next one; the dotted arrow joins the title to the place of the code, which is not on the path; and
no arrow stands before the nodes that it joins. -/
theorem flowchart_is_one_path (flow : Flow) (rules : List Rule) :
    splitLines (flowchart flow rules) = "flowchart TD" :: flowLines flow rules ++ [""] ∧
    ((flowNodes flow rules).map Prod.fst).Nodup ∧
    (∀ node ∈ flowNodes flow rules,
      IsWord node.1.toList ∧ '"' ∉ node.2.toList ∧ '\n' ∉ node.2.toList) ∧
    "code_ref" ∉ (pathNodes flow rules).map Prod.fst ∧
    (readFlow (flowchart flow rules)).filterMap FlowLine.node? = flowNodes flow rules ∧
    (readFlow (flowchart flow rules)).filterMap FlowLine.solid? =
      consecutive ((pathNodes flow rules).map Prod.fst) ∧
    (readFlow (flowchart flow rules)).filterMap FlowLine.dotted? =
      (codeNodes flow).map (fun node => (flow.titleNode, node.1)) ∧
    FlowLine.DeclaresFirst (readFlow (flowchart flow rules)) := by
  refine ⟨splitLines_flowchart flow rules, nodup_flowNodes, ?_, codeNode_notMem_pathNodes,
    ?_, ?_, ?_, (declaresFrom_flowchart flow rules).declaresFirst⟩
  · intro node hnode
    exact ⟨isWord_of_mem_flowNodes (List.mem_map_of_mem hnode), label_of_mem_flowNodes hnode⟩
  · rw [filterMap_flowchart rfl, node?_execution, node?_code]
    rfl
  · rw [filterMap_flowchart rfl, solid?_execution, solid?_code, List.append_nil]
    rfl
  · rw [filterMap_flowchart rfl, dotted?_execution, dotted?_code]
    rfl

end ManifestAtlas
