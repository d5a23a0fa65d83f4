import Mathlib
import ManifestAtlas.Proofs.DependencyLines

/-!
# Reading a flow diagram

`readFlowLine` takes one line of a flow diagram for a node, an arrow or
something else, without knowing what the line was written from.  A statement
whose names are words is read as what it is (`readFlowLine_statement`): its
label may hold anything, and is found again in its escaped form.

The rest of the module is about sequences of lines that were read.
`DeclaresFirst` says that arrows only join nodes of earlier lines; it is shown
line by line with `DeclaresFrom`, which carries the names so far.
-/

namespace ManifestAtlas

open Mermaid

/-! ## Words -/

theorem isWord_of_all {word : List Char}
    (hfirst : word.head?.any (fun c => !c.isDigit) = true) (hall : word.all isNodeChar = true) :
    IsWord word := by
  cases word with
  | nil => exact absurd hfirst (by decide)
  | cons c rest => exact ⟨by simpa using hfirst, List.all_eq_true.1 hall⟩

theorem isWord_append {word more : List Char} (h : IsWord word)
    (hmore : ∀ c ∈ more, isNodeChar c = true) : IsWord (word ++ more) := by
  cases word with
  | nil => exact h.elim
  | cons first rest =>
    refine ⟨h.1, fun c hc => ?_⟩
    rcases List.mem_append.1 (List.cons_append ▸ hc) with hc | hc
    · exact h.2 c hc
    · exact hmore c hc

/-- A word does not start like an arrow. -/
theorem IsWord.exists_head {word : List Char} (h : IsWord word) :
    ∃ c rest, word = c :: rest ∧ c ≠ '-' := by
  cases word with
  | nil => exact h.elim
  | cons c rest =>
    refine ⟨c, rest, rfl, ?_⟩
    rintro rfl
    exact absurd (h.2 '-' List.mem_cons_self) (by decide)

theorem IsWord.isOneLine {name : String} (h : IsWord name.toList) : IsOneLine name :=
  isOneLine_of_isNodeChar fun _ hc => h.isNodeChar hc

/-! ## What a line is read as -/

/-- What a line of a flow diagram is read as. -/
inductive FlowLine where
  | node (name label : String)
  | solid (source target : String)
  | dotted (source target : String)
  | other
  deriving DecidableEq, Repr

/-- Reads a line.  A label ends at the next double quote and its line with the bracket behind it;
an arrow ends with a name. -/
def readFlowLine (line : String) : FlowLine :=
  match readStatement? line with
  | some (source, ' ' :: '-' :: '-' :: '>' :: ' ' :: target) =>
    if target.all isNodeChar then .solid (String.ofList source) (String.ofList target) else .other
  | some (source, ' ' :: '-' :: '.' :: '-' :: '>' :: ' ' :: target) =>
    if target.all isNodeChar then .dotted (String.ofList source) (String.ofList target) else .other
  | some (name, '[' :: '"' :: text) =>
    if text.dropWhile (· ≠ '"') = ['"', ']'] then
      .node (String.ofList name) (String.ofList (text.takeWhile (· ≠ '"')))
    else .other
  | some (name, '(' :: '"' :: text) =>
    if text.dropWhile (· ≠ '"') = ['"', ')'] then
      .node (String.ofList name) (String.ofList (text.takeWhile (· ≠ '"')))
    else .other
  | _ => .other

/-- Reads a text line by line. -/
def readFlow (text : String) : List FlowLine :=
  (splitLines text).map readFlowLine

/-- What the line of a statement should be read as. -/
def Mermaid.FlowStatement.meaning : FlowStatement → FlowLine
  | .node id _ label => .node id (escapeLabel label)
  | .arrow source target => .solid source target
  | .dotted source target => .dotted source target
  | .style _ _ | .assign _ _ => .other

/-- The names in a statement are words. -/
def Mermaid.FlowStatement.IsNamed : FlowStatement → Prop
  | .node id _ _ => IsWord id.toList
  | .arrow source target | .dotted source target => IsWord source.toList ∧ IsWord target.toList
  | .style name _ => IsWord name.toList
  | .assign ids _ => ∃ id more, ids = id :: more ∧ IsWord id.toList

theorem readStatement?_of_isWord {name line : String} (hname : IsWord name.toList) {c : Char}
    (hc : isNodeChar c = false) {rest : List Char}
    (hline : line.toList = "    ".toList ++ name.toList ++ c :: rest) :
    readStatement? line = some (name.toList, c :: rest) :=
  readStatement?_eq (fun _ hmem => hname.isNodeChar hmem) hc hline

/-- An escaped label ends where the text goes on with a double quote. -/
theorem span_escapeLabel (label : String) (rest : List Char) :
    ((escapeLabel label).toList ++ '"' :: rest).takeWhile (· ≠ '"') = (escapeLabel label).toList ∧
      ((escapeLabel label).toList ++ '"' :: rest).dropWhile (· ≠ '"') = '"' :: rest := by
  have hquotes : ∀ c ∈ (escapeLabel label).toList, decide (c ≠ '"') = true := by
    intro c hc
    rw [decide_eq_true_eq]
    rintro rfl
    exact quote_notMem_escapeLabel label hc
  rw [List.takeWhile_append_of_pos hquotes, List.dropWhile_append_of_pos hquotes]
  simp

/-- A keyword in front of a word makes neither a node nor an arrow. -/
theorem readFlowLine_keyword {keyword word : String} (hkeyword : IsWord keyword.toList)
    (hword : IsWord word.toList) {line : String} {rest : List Char}
    (hline : line.toList = "    ".toList ++ keyword.toList ++ ' ' :: (word.toList ++ rest)) :
    readFlowLine line = .other := by
  obtain ⟨c, more, hhead, hc⟩ := hword.exists_head
  rw [readFlowLine, readStatement?_of_isWord hkeyword (by decide) hline, hhead, List.cons_append]
  split
  · rename_i heq
    simp only [Option.some.injEq, Prod.mk.injEq, List.cons.injEq] at heq
    exact absurd heq.2.2.1 hc
  · rename_i heq
    simp only [Option.some.injEq, Prod.mk.injEq, List.cons.injEq] at heq
    exact absurd heq.2.2.1 hc
  · rename_i heq
    simp at heq
  · rename_i heq
    simp at heq
  · rfl

/-- A statement whose names are words is read as what it says. -/
theorem readFlowLine_statement {s : FlowStatement} (h : s.IsNamed) :
    readFlowLine (Lines.statementLine s.text) = s.meaning := by
  -- Every name is followed by a space or by a bracket, and what comes next tells the kind of line.
  cases s with
  | node id shape label =>
    have hspan := span_escapeLabel label
    cases shape with
    | box =>
      have hread : readStatement? (Lines.statementLine (FlowStatement.node id .box label).text) =
          some (id.toList, '[' :: '"' :: ((escapeLabel label).toList ++ ['"', ']'])) :=
        readStatement?_of_isWord h (by decide)
          (by simp [Lines.statementLine, FlowStatement.text, Shape.enclose, quotedLabel])
      simp only [readFlowLine, hread, hspan, if_true, String.ofList_toList, FlowStatement.meaning]
    | round =>
      have hread : readStatement? (Lines.statementLine (FlowStatement.node id .round label).text) =
          some (id.toList, '(' :: '"' :: ((escapeLabel label).toList ++ ['"', ')'])) :=
        readStatement?_of_isWord h (by decide)
          (by simp [Lines.statementLine, FlowStatement.text, Shape.enclose, quotedLabel])
      simp only [readFlowLine, hread, hspan, if_true, String.ofList_toList, FlowStatement.meaning]
  | arrow source target =>
    have hread : readStatement? (Lines.statementLine (FlowStatement.arrow source target).text) =
        some (source.toList, ' ' :: '-' :: '-' :: '>' :: ' ' :: target.toList) :=
      readStatement?_of_isWord h.1 (by decide)
        (by simp [Lines.statementLine, FlowStatement.text, toString])
    have hall : target.toList.all isNodeChar = true :=
      List.all_eq_true.2 fun _ hc => h.2.isNodeChar hc
    simp only [readFlowLine, hread, hall, if_true, String.ofList_toList, FlowStatement.meaning]
  | dotted source target =>
    have hread : readStatement? (Lines.statementLine (FlowStatement.dotted source target).text) =
        some (source.toList, ' ' :: '-' :: '.' :: '-' :: '>' :: ' ' :: target.toList) :=
      readStatement?_of_isWord h.1 (by decide)
        (by simp [Lines.statementLine, FlowStatement.text, toString])
    have hall : target.toList.all isNodeChar = true :=
      List.all_eq_true.2 fun _ hc => h.2.isNodeChar hc
    simp only [readFlowLine, hread, hall, if_true, String.ofList_toList, FlowStatement.meaning]
  | style name properties =>
    have hkeyword : IsWord "classDef".toList := isWord_of_all (by decide) (by decide)
    have hline : (Lines.statementLine (FlowStatement.style name properties).text).toList =
        "    ".toList ++ "classDef".toList ++ ' ' :: (name.toList ++ ' ' :: properties.toList) := by
      simp [Lines.statementLine, FlowStatement.text, toString]
    exact readFlowLine_keyword hkeyword h hline
  | assign ids name =>
    obtain ⟨id, more, rfl, hid⟩ := h
    obtain ⟨rest, hrest⟩ : ∃ rest, (",".intercalate (id :: more)).toList = id.toList ++ rest := by
      cases more with
      | nil => exact ⟨[], by simp⟩
      | cons second more =>
        rw [String.intercalate_cons_cons, String.append_assoc, String.toList_append]
        exact ⟨_, rfl⟩
    have hkeyword : IsWord "class".toList := isWord_of_all (by decide) (by decide)
    have hline : (Lines.statementLine (FlowStatement.assign (id :: more) name).text).toList =
        "    ".toList ++ "class".toList ++ ' ' :: (id.toList ++ (rest ++ ' ' :: name.toList)) := by
      simp [Lines.statementLine, FlowStatement.text, hrest]
    exact readFlowLine_keyword hkeyword hid hline

/-! ## Sequences of lines -/

namespace FlowLine

/-- The node of a line with its label. -/
def node? : FlowLine → Option (String × String)
  | .node name label => some (name, label)
  | _ => none

/-- The names that a solid arrow joins. -/
def solid? : FlowLine → Option (String × String)
  | .solid source target => some (source, target)
  | _ => none

/-- The names that a dotted arrow joins. -/
def dotted? : FlowLine → Option (String × String)
  | .dotted source target => some (source, target)
  | _ => none

/-- The names at the ends of an arrow, solid or dotted. -/
def ends : FlowLine → List String
  | .solid source target | .dotted source target => [source, target]
  | _ => []

/-- The names of the nodes in a sequence of lines. -/
def names (lines : List FlowLine) : List String :=
  (lines.filterMap node?).map Prod.fst

/-- Every arrow joins nodes of earlier lines. -/
def DeclaresFirst (lines : List FlowLine) : Prop :=
  ∀ before line after, lines = before ++ line :: after → ∀ name ∈ line.ends, name ∈ names before

/-- Every arrow joins nodes that are known or stand in earlier lines. -/
def DeclaresFrom (known : List String) : List FlowLine → Prop
  | [] => True
  | line :: lines =>
    (∀ name ∈ line.ends, name ∈ known) ∧ DeclaresFrom (known ++ names [line]) lines

theorem names_append (xs ys : List FlowLine) : names (xs ++ ys) = names xs ++ names ys := by
  simp [names]

theorem names_cons (line : FlowLine) (lines : List FlowLine) :
    names (line :: lines) = names [line] ++ names lines :=
  names_append [line] lines

section

variable {known : List String}

theorem declaresFrom_append {xs ys : List FlowLine} :
    DeclaresFrom known (xs ++ ys) ↔
      DeclaresFrom known xs ∧ DeclaresFrom (known ++ names xs) ys := by
  induction xs generalizing known with
  | nil => simp [DeclaresFrom, names]
  | cons line xs ih =>
    rw [List.cons_append, DeclaresFrom, DeclaresFrom, ih, names_cons line xs, and_assoc,
      List.append_assoc]

/-- What is shown line by line holds of the whole sequence. -/
theorem DeclaresFrom.declaresFirst {lines : List FlowLine} (h : DeclaresFrom [] lines) :
    DeclaresFirst lines := by
  rintro before line after rfl name hname
  have hline := (declaresFrom_append.1 h).2.1 name hname
  simpa using hline

end

end FlowLine

end ManifestAtlas
