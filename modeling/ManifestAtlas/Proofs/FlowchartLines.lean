import Mathlib
import ManifestAtlas.Diagram.Flowchart
import ManifestAtlas.Proofs.FlowReading

/-!
# The lines of a flowchart

The text of a flowchart, seen line by line: the title, the trigger and an arrow
between them, two lines for each step in execution order, and four for the
place of the code, if there is one.  Names, descriptions, triggers and rules
may hold anything.

There are three groups.

* The lines that are expected, and the statements as these lines.  The
  invariant of the recursion over the steps is that the arrow to a step comes
  from the node in front of it (`map_statementLine_stepStatements`).
* The nodes and their names.  These are words (`isWord_of_mem_flowNodes`) and
  differ from each other (`nodup_flowNodes`).
* The text as these lines (`splitLines_flowchart`).
-/

namespace ManifestAtlas

open Mermaid

/-! ## The lines that are expected -/

/-- The line of a rounded node. -/
def roundLine (id label : String) : String :=
  "    " ++ id ++ "(\"" ++ label ++ "\")"

/-- The line of a dotted arrow between two names. -/
def dottedLine (source target : String) : String :=
  "    " ++ source ++ " -.-> " ++ target

/-- The name of the title of a flow. -/
def Flow.titleNode (flow : Flow) : String :=
  nodeId "flow_" flow.id

/-- The label of the trigger: what triggers the flow, or a dash. -/
def Flow.triggerLabel (flow : Flow) : String :=
  match visible? flow.trigger with
  | some trigger => "触发：" ++ trigger
  | none => "触发：-"

/-- The lines of the steps: for each a node, and an arrow from the node in front of it. -/
def stepLines (rules : List Rule) (steps : List Step) : List String :=
  (steps.zipIdx 1).flatMap fun (step, k) =>
    [nodeLine s!"step_{k}" (escapeLabel (stepLabel rules step)),
      arrowLine (if k = 1 then "trigger" else s!"step_{k - 1}") s!"step_{k}"]

/-- The lines between the trigger and the end of the path; a placeholder for a flow without
steps. -/
def executionLines (rules : List Rule) (steps : List Step) : List String :=
  if steps = [] then [nodeLine "no_steps" "暂无步骤", arrowLine "trigger" "no_steps"]
  else stepLines rules steps

/-- The lines for the place of the code, if it shows as anything. -/
def codeLines (title code : String) : List String :=
  if code = "" then []
  else
    [nodeLine "code_ref" (escapeLabel ("代码：" ++ code)), dottedLine title "code_ref",
      "    classDef aux fill:#fafafa,stroke:#bbb,color:#666", "    class code_ref aux"]

/-- All lines of a flowchart but the header. -/
def flowLines (flow : Flow) (rules : List Rule) : List String :=
  [nodeLine flow.titleNode (escapeLabel flow.name),
    roundLine "trigger" (escapeLabel flow.triggerLabel), arrowLine flow.titleNode "trigger"] ++
  executionLines rules flow.orderedSteps ++ codeLines flow.titleNode (displayPlace flow.codeRef)

/-! ## The statements as lines -/

theorem statementLine_box (id label : String) :
    Lines.statementLine (FlowStatement.node id .box label).text =
      nodeLine id (escapeLabel label) := by
  rw [← String.toList_inj]
  simp [Lines.statementLine, FlowStatement.text, Shape.enclose, quotedLabel, nodeLine]

theorem statementLine_round (id label : String) :
    Lines.statementLine (FlowStatement.node id .round label).text =
      roundLine id (escapeLabel label) := by
  rw [← String.toList_inj]
  simp [Lines.statementLine, FlowStatement.text, Shape.enclose, quotedLabel, roundLine]

theorem statementLine_dotted (source target : String) :
    Lines.statementLine (FlowStatement.dotted source target).text = dottedLine source target := by
  rw [← String.toList_inj]
  simp [Lines.statementLine, FlowStatement.text, dottedLine, toString]

/-- The arrow to the step at a position comes from the node in front of it: the given one for the
first of the steps, and the step before for any other. -/
theorem map_statementLine_stepStatements (rules : List Rule) (previous : String) (i : Nat)
    (steps : List Step) :
    (stepStatements rules previous i steps).map (fun s => Lines.statementLine s.text) =
      (steps.zipIdx i).flatMap fun (step, k) =>
        [nodeLine s!"step_{k}" (escapeLabel (stepLabel rules step)),
          arrowLine (if k = i then previous else s!"step_{k - 1}") s!"step_{k}"] := by
  induction steps generalizing previous i with
  | nil => rfl
  | cons step steps ih =>
    have hrest : (steps.zipIdx (i + 1)).flatMap (fun (step, k) =>
        [nodeLine s!"step_{k}" (escapeLabel (stepLabel rules step)),
          arrowLine (if k = i + 1 then stepNode i else s!"step_{k - 1}") s!"step_{k}"]) =
      (steps.zipIdx (i + 1)).flatMap (fun (step, k) =>
        [nodeLine s!"step_{k}" (escapeLabel (stepLabel rules step)),
          arrowLine (if k = i then previous else s!"step_{k - 1}") s!"step_{k}"]) := by
      refine List.flatMap_congr fun entry hentry => ?_
      have hlater : i + 1 ≤ entry.2 := List.le_snd_of_mem_zipIdx hentry
      by_cases hnext : entry.2 = i + 1
      · simp only [hnext, if_pos, if_neg (Nat.succ_ne_self i), Nat.add_sub_cancel]
        rfl
      · simp only [if_neg hnext, if_neg (show entry.2 ≠ i by omega)]
    rw [stepStatements, List.map_cons, List.map_cons, ih, hrest, List.zipIdx_cons,
      List.flatMap_cons, statementLine_box, statementLine_arrow]
    simp only [if_pos]
    rfl

theorem map_statementLine_execution (rules : List Rule) (steps : List Step) :
    (executionStatements rules steps).map (fun s => Lines.statementLine s.text) =
      executionLines rules steps := by
  cases steps with
  | nil =>
    have hlabel : escapeLabel "暂无步骤" = "暂无步骤" := by decide
    simp [executionStatements, executionLines, statementLine_box, statementLine_arrow, hlabel,
      noStepsNode, triggerNode]
  | cons step steps =>
    rw [executionLines, if_neg (List.cons_ne_nil _ _)]
    exact map_statementLine_stepStatements rules triggerNode 1 (step :: steps)

theorem map_statementLine_code (title : String) (place : Option CodeRef) :
    (codeStatements title place).map (fun s => Lines.statementLine s.text) =
      codeLines title (displayPlace place) := by
  by_cases hcode : displayPlace place = ""
  · simp [codeStatements, codeLines, hcode]
  · have hstyle : Lines.statementLine
        (FlowStatement.style "aux" "fill:#fafafa,stroke:#bbb,color:#666").text =
          "    classDef aux fill:#fafafa,stroke:#bbb,color:#666" := by decide
    have hassign : Lines.statementLine (FlowStatement.assign ["code_ref"] "aux").text =
        "    class code_ref aux" := by decide
    simp [codeStatements, codeLines, hcode, statementLine_box, statementLine_dotted, codeNode,
      hstyle, hassign]

theorem triggerText (flow : Flow) :
    "触发：" ++ (visible? flow.trigger).getD "-" = flow.triggerLabel := by
  rw [Flow.triggerLabel]
  cases visible? flow.trigger with
  | none => decide
  | some trigger => rfl

theorem map_statementLine_flow (flow : Flow) (rules : List Rule) :
    (flowDiagram flow rules).statements.map (fun s => Lines.statementLine s.text) =
      flowLines flow rules := by
  simp only [flowDiagram, List.map_append, map_statementLine_execution, map_statementLine_code,
    triggerText]
  simp [statementLine_box, statementLine_round, statementLine_arrow, flowLines, Flow.titleNode,
    triggerNode]

/-! ## The nodes and their names -/

/-- The nodes of the steps with their labels; a placeholder for a flow without steps. -/
def executionNodes (rules : List Rule) (steps : List Step) : List (String × String) :=
  if steps = [] then [("no_steps", "暂无步骤")]
  else (steps.zipIdx 1).map fun (step, k) => (s!"step_{k}", escapeLabel (stepLabel rules step))

/-- The nodes on the path of a flow with their labels: the title, the trigger and the steps. -/
def pathNodes (flow : Flow) (rules : List Rule) : List (String × String) :=
  (flow.titleNode, escapeLabel flow.name) :: ("trigger", escapeLabel flow.triggerLabel) ::
    executionNodes rules flow.orderedSteps

/-- The node for the place of the code with its label, if there is one. -/
def codeNodes (flow : Flow) : List (String × String) :=
  if displayPlace flow.codeRef = "" then []
  else [("code_ref", escapeLabel ("代码：" ++ displayPlace flow.codeRef))]

/-- All nodes of a flowchart with their labels. -/
def flowNodes (flow : Flow) (rules : List Rule) : List (String × String) :=
  pathNodes flow rules ++ codeNodes flow

theorem toList_nodeId (tag raw : String) :
    (nodeId tag raw).toList = tag.toList ++ nodeWord raw.toList := by
  rw [nodeId, String.toList_append, String.toList_ofList]

theorem isWord_titleNode (flow : Flow) : IsWord flow.titleNode.toList := by
  rw [Flow.titleNode, toList_nodeId]
  refine isWord_append (isWord_of_all (by decide) (by decide)) fun c hc => ?_
  exact (isWord_nodeWord flow.id.toList).isNodeChar hc

theorem toList_stepNode (k : Nat) : (stepNode k).toList = "step_".toList ++ Nat.toDigits 10 k := by
  rw [← Nat.toList_repr, ← String.toList_append]
  rfl

theorem isWord_stepNode (k : Nat) : IsWord (stepNode k).toList := by
  rw [toList_stepNode]
  refine isWord_append (isWord_of_all (by decide) (by decide)) fun c hc => ?_
  have hdigit := Nat.isDigit_of_mem_toDigits (by decide) (by decide) hc
  simp [isNodeChar, Char.isAlphanum, hdigit]

theorem stepNode_injective : Function.Injective stepNode := by
  intro j k h
  have hrepr : j.repr = k.repr := by
    rw [← String.toList_inj, Nat.toList_repr, Nat.toList_repr]
    exact List.append_cancel_left (toList_stepNode j ▸ toList_stepNode k ▸ congrArg String.toList h)
  exact Nat.repr_inj.1 hrepr

section

variable {flow : Flow} {rules : List Rule} {steps : List Step}

theorem map_fst_executionNodes (h : steps ≠ []) :
    (executionNodes rules steps).map Prod.fst = (List.range' 1 steps.length).map stepNode := by
  rw [executionNodes, if_neg h, List.map_map, ← List.zipIdx_map_snd 1 steps, List.map_map]
  rfl

theorem eq_of_mem_executionNodes {name : String}
    (h : name ∈ (executionNodes rules steps).map Prod.fst) :
    name = "no_steps" ∨ ∃ k, name = stepNode k := by
  by_cases hsteps : steps = []
  · rw [executionNodes, if_pos hsteps] at h
    exact .inl (by simpa using h)
  · rw [map_fst_executionNodes hsteps] at h
    obtain ⟨k, _, rfl⟩ := List.mem_map.1 h
    exact .inr ⟨k, rfl⟩

theorem nodup_executionNodes : ((executionNodes rules steps).map Prod.fst).Nodup := by
  by_cases hsteps : steps = []
  · rw [executionNodes, if_pos hsteps]
    exact List.nodup_singleton _
  · rw [map_fst_executionNodes hsteps]
    have hrange : (List.range' 1 steps.length).Nodup := List.nodup_range'
    exact hrange.map stepNode_injective

theorem eq_of_mem_codeNodes {name : String} (h : name ∈ (codeNodes flow).map Prod.fst) :
    name = "code_ref" := by
  rw [codeNodes] at h
  split at h
  · cases h
  · simpa using h

/-- The tag of the title keeps it apart from all other nodes. -/
theorem titleNode_ne {name : String} (h : name.toList.head? ≠ some 'f') :
    flow.titleNode ≠ name := by
  rintro rfl
  refine h ?_
  rw [Flow.titleNode, toList_nodeId]
  rfl

theorem head?_stepNode (k : Nat) : (stepNode k).toList.head? = some 's' := by
  rw [toList_stepNode]
  rfl

/-- The path does not pass the place of the code. -/
theorem codeNode_notMem_pathNodes : "code_ref" ∉ (pathNodes flow rules).map Prod.fst := by
  intro h
  rw [pathNodes, List.map_cons, List.map_cons, List.mem_cons, List.mem_cons] at h
  rcases h with h | h | h
  · exact titleNode_ne (by decide) h.symm
  · exact absurd (show "code_ref" = "trigger" from h) (by decide)
  · rcases eq_of_mem_executionNodes h with h | ⟨k, h⟩
    · exact absurd h (by decide)
    · have hhead := head?_stepNode k
      rw [← h] at hhead
      exact absurd hhead (by decide)

/-- The nodes of a flowchart have different names. -/
theorem nodup_flowNodes : ((flowNodes flow rules).map Prod.fst).Nodup := by
  have htitle : ∀ name ∈ "trigger" :: (executionNodes rules flow.orderedSteps).map Prod.fst,
      flow.titleNode ≠ name := by
    intro name hname
    rcases List.mem_cons.1 hname with rfl | hname
    · exact titleNode_ne (by decide)
    · rcases eq_of_mem_executionNodes hname with rfl | ⟨k, rfl⟩
      · exact titleNode_ne (by decide)
      · exact titleNode_ne (by rw [head?_stepNode]; decide)
  have htrigger : ∀ name ∈ (executionNodes rules flow.orderedSteps).map Prod.fst,
      "trigger" ≠ name := by
    intro name hname
    rcases eq_of_mem_executionNodes hname with rfl | ⟨k, rfl⟩
    · decide
    · intro h
      have hhead := head?_stepNode k
      rw [← h] at hhead
      exact absurd hhead (by decide)
  have hcode : ((codeNodes flow).map Prod.fst).Nodup := by
    rw [codeNodes]
    split
    · exact List.nodup_nil
    · exact List.nodup_singleton _
  rw [flowNodes, List.map_append, List.nodup_append]
  refine ⟨?_, hcode, ?_⟩
  · rw [pathNodes, List.map_cons, List.map_cons, List.nodup_cons, List.nodup_cons]
    exact ⟨fun h => htitle _ h rfl, fun h => htrigger _ h rfl, nodup_executionNodes⟩
  · intro name hname other hother heq
    rw [eq_of_mem_codeNodes hother] at heq
    exact codeNode_notMem_pathNodes (heq ▸ hname)

/-- The names of the nodes are words. -/
theorem isWord_of_mem_flowNodes {name : String}
    (h : name ∈ (flowNodes flow rules).map Prod.fst) : IsWord name.toList := by
  rw [flowNodes, List.map_append, List.mem_append, pathNodes, List.map_cons, List.map_cons,
    List.mem_cons, List.mem_cons] at h
  rcases h with (rfl | rfl | h) | h
  · exact isWord_titleNode flow
  · show IsWord "trigger".toList
    exact isWord_of_all (by decide) (by decide)
  · rcases eq_of_mem_executionNodes h with rfl | ⟨k, rfl⟩
    · exact isWord_of_all (by decide) (by decide)
    · exact isWord_stepNode k
  · rw [eq_of_mem_codeNodes h]
    exact isWord_of_all (by decide) (by decide)

/-- No label holds a double quote or a line feed. -/
theorem label_of_mem_flowNodes {node : String × String} (h : node ∈ flowNodes flow rules) :
    '"' ∉ node.2.toList ∧ '\n' ∉ node.2.toList := by
  have hescaped : ∀ text, '"' ∉ (escapeLabel text).toList ∧ '\n' ∉ (escapeLabel text).toList :=
    fun text => ⟨quote_notMem_escapeLabel text, isOneLine_escapeLabel text⟩
  rw [flowNodes, List.mem_append, pathNodes, List.mem_cons, List.mem_cons] at h
  rcases h with (rfl | rfl | h) | h
  · exact hescaped _
  · exact hescaped _
  · rw [executionNodes] at h
    split at h
    · rw [List.mem_singleton.1 h]
      decide
    · obtain ⟨entry, _, rfl⟩ := List.mem_map.1 h
      exact hescaped _
  · rw [codeNodes] at h
    split at h
    · cases h
    · rw [List.mem_singleton.1 h]
      exact hescaped _

end

/-! ## The text as these lines -/

theorem isOneLine_roundLine {id label : String} (hid : IsOneLine id) (hlabel : IsOneLine label) :
    IsOneLine (roundLine id label) := by
  simp only [roundLine, isOneLine_append]
  exact ⟨⟨⟨⟨by decide, hid⟩, by decide⟩, hlabel⟩, by decide⟩

theorem isOneLine_dottedLine {source target : String} (hsource : IsOneLine source)
    (htarget : IsOneLine target) : IsOneLine (dottedLine source target) := by
  simp only [dottedLine, isOneLine_append]
  exact ⟨⟨⟨by decide, hsource⟩, by decide⟩, htarget⟩

theorem isOneLine_of_mem_stepLines {rules : List Rule} {steps : List Step} {line : String}
    (h : line ∈ stepLines rules steps) : IsOneLine line := by
  have hstep : ∀ k, IsOneLine (stepNode k) := fun k => (isWord_stepNode k).isOneLine
  obtain ⟨⟨step, k⟩, _, hline⟩ := List.mem_flatMap.1 h
  rcases List.mem_cons.1 hline with rfl | hline
  · exact isOneLine_nodeLine (hstep k) (isOneLine_escapeLabel _)
  · rw [List.mem_singleton.1 hline]
    refine isOneLine_arrowLine ?_ (hstep k)
    split
    · decide
    · exact hstep (k - 1)

theorem isOneLine_of_mem_executionLines {rules : List Rule} {steps : List Step} {line : String}
    (h : line ∈ executionLines rules steps) : IsOneLine line := by
  rw [executionLines] at h
  split at h
  · have hplaceholder : line = nodeLine "no_steps" "暂无步骤" ∨
        line = arrowLine "trigger" "no_steps" := by simpa using h
    rcases hplaceholder with rfl | rfl <;> decide
  · exact isOneLine_of_mem_stepLines h

theorem isOneLine_of_mem_codeLines {title code line : String} (htitle : IsOneLine title)
    (h : line ∈ codeLines title code) : IsOneLine line := by
  rw [codeLines] at h
  split at h
  · cases h
  · simp only [List.mem_cons, List.not_mem_nil, or_false] at h
    rcases h with rfl | rfl | rfl | rfl
    · exact isOneLine_nodeLine (by decide) (isOneLine_escapeLabel _)
    · exact isOneLine_dottedLine htitle (by decide)
    · decide
    · decide

section

variable {flow : Flow} {rules : List Rule}

/-- Whatever the texts of a flow hold, each of its lines is one line. -/
theorem isOneLine_of_mem_flowLines {line : String} (h : line ∈ flowLines flow rules) :
    IsOneLine line := by
  have htitle : IsOneLine flow.titleNode := (isWord_titleNode flow).isOneLine
  rw [flowLines, List.mem_append, List.mem_append] at h
  rcases h with (h | h) | h
  · simp only [List.mem_cons, List.not_mem_nil, or_false] at h
    rcases h with rfl | rfl | rfl
    · exact isOneLine_nodeLine htitle (isOneLine_escapeLabel _)
    · exact isOneLine_roundLine (by decide) (isOneLine_escapeLabel _)
    · exact isOneLine_arrowLine htitle (by decide)
  · exact isOneLine_of_mem_executionLines h
  · exact isOneLine_of_mem_codeLines htitle h

end

theorem splitLines_flowchart (flow : Flow) (rules : List Rule) :
    splitLines (flowchart flow rules) = "flowchart TD" :: flowLines flow rules ++ [""] := by
  have hlines : ((flowDiagram flow rules).statements.map FlowStatement.text).map
      Lines.statementLine = flowLines flow rules := by
    rw [List.map_map, ← map_statementLine_flow]
    rfl
  have hheader : (flowDiagram flow rules).direction.header = "flowchart TD" := rfl
  rw [flowchart, FlowDiagram.text, hheader, splitLines_statements (by decide), hlines]
  rw [hlines]
  exact fun _ hline => isOneLine_of_mem_flowLines hline

end ManifestAtlas
