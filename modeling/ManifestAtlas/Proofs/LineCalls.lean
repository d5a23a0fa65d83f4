import Mathlib
import ManifestAtlas.Proofs.ListingLines

/-!
# Texts that are put together call by call

A text is begun with or without a header, and every call adds one line to it.
A `LineScript` is such a sequence, and `LineScript.lines` says which lines it
appends: each is the text of its call behind a number of spaces.

There are three groups.

* Texts of lines.  A text falls apart into its lines and an empty piece just if
  it has lines, and these have no line feed of their own
  (`splitLines_text_iff`).  Without any line it is a single line feed, which
  falls apart into two empty pieces.
* Calls.  One call adds its line behind the others (`lines_apply`).
* Runs.  So a run has the lines of its script (`lines_run`).

Main statement: `run_keeps_appended_lines`.
-/

namespace ManifestAtlas

/-! ## Texts of lines -/

/-- A text of at least one line has a line feed behind each. -/
theorem text_eq_unlines {l : Lines} (hne : l.lines ≠ []) : l.text = unlines l.lines := by
  obtain ⟨lines⟩ := l
  induction lines with
  | nil => exact absurd rfl hne
  | cons line lines ih =>
    cases lines with
    | nil => simp [Lines.text, unlines]
    | cons second lines =>
      have hrest := ih (List.cons_ne_nil second lines)
      simp only [Lines.text, unlines, List.map_cons, String.join_cons] at hrest ⊢
      rw [String.intercalate_cons_cons, String.append_assoc, hrest]

/-- A text falls apart into its lines and an empty piece just if there are lines, none of them with
a line feed of its own. -/
theorem splitLines_text_iff {l : Lines} :
    splitLines l.text = l.lines ++ [""] ↔ l.lines ≠ [] ∧ ∀ line ∈ l.lines, IsOneLine line := by
  constructor
  · intro hsplit
    have hne : l.lines ≠ [] := by
      intro hnil
      have hempty : l.text = "\n" := by simp [Lines.text, hnil]
      rw [hempty, hnil] at hsplit
      exact absurd hsplit (by decide)
    have hlength := length_splitLines_unlines l.lines
    rw [← text_eq_unlines hne, hsplit, List.length_append, List.length_singleton] at hlength
    exact ⟨hne, sum_lineFeeds_eq_zero_iff.1 (by omega)⟩
  · intro h
    exact splitLines_text h.1 h.2

/-! ## Calls -/

/-- A call that adds a line. -/
inductive LineCall where
  | push (line : String)
  | statement (text : String)
  | nested (depth : Nat) (text : String)
  deriving DecidableEq, Repr

namespace LineCall

/-- The text that a call is given. -/
def text : LineCall → String
  | .push line => line
  | .statement text => text
  | .nested _ text => text

/-- The number of spaces in front of that text. -/
def indent : LineCall → Nat
  | .push _ => 0
  | .statement _ => 4
  | .nested depth _ => 2 * min depth 32

/-- The line that a call appends. -/
def line (call : LineCall) : String :=
  String.ofList (List.replicate call.indent ' ') ++ call.text

/-- Makes a call. -/
def apply (l : Lines) : LineCall → Lines
  | .push line => l.push line
  | .statement text => l.statement text
  | .nested depth text => l.nested depth text

theorem lines_apply (l : Lines) (call : LineCall) :
    (call.apply l).lines = l.lines ++ [call.line] := by
  cases call with
  | push line => simp [apply, Lines.push, LineCall.line, indent, text]
  | statement text => rfl
  | nested depth text => rfl

/-- Spaces in front of a text break no line. -/
theorem isOneLine_line {call : LineCall} : IsOneLine call.line ↔ IsOneLine call.text := by
  rw [line, isOneLine_append]
  refine and_iff_right fun hmem => ?_
  rw [String.toList_ofList] at hmem
  exact absurd (List.eq_of_mem_replicate hmem) (by decide)

end LineCall

/-! ## Runs -/

/-- A header, if there is one, and calls. -/
structure LineScript where
  header : Option String
  calls : List LineCall
  deriving DecidableEq, Repr

namespace LineScript

/-- The lines before the first call. -/
def start : Option String → Lines
  | none => .empty
  | some header => .headed header

/-- The lines after the last call. -/
def run (script : LineScript) : Lines :=
  script.calls.foldl LineCall.apply (start script.header)

/-- The lines that a script appends, the header included. -/
def lines (script : LineScript) : List String :=
  script.header.toList ++ script.calls.map LineCall.line

/-- The texts that a script is given, the header included. -/
def texts (script : LineScript) : List String :=
  script.header.toList ++ script.calls.map LineCall.text

/-- A script that appends at least one line, from texts without line feeds. -/
structure IsPlain (script : LineScript) : Prop where
  nonempty : script.lines ≠ []
  texts : ∀ text ∈ script.texts, IsOneLine text

theorem lines_foldl (l : Lines) (calls : List LineCall) :
    (calls.foldl LineCall.apply l).lines = l.lines ++ calls.map LineCall.line := by
  induction calls generalizing l with
  | nil => rw [List.foldl_nil, List.map_nil, List.append_nil]
  | cons call calls ih =>
    rw [List.foldl_cons, ih, LineCall.lines_apply, List.append_assoc, List.map_cons]
    rfl

theorem lines_run (script : LineScript) : script.run.lines = script.lines := by
  rw [run, lines_foldl, lines]
  cases script.header with
  | none => rfl
  | some header => rfl

theorem forall_lines_iff {script : LineScript} :
    (∀ line ∈ script.lines, IsOneLine line) ↔ ∀ text ∈ script.texts, IsOneLine text := by
  simp only [lines, texts, List.forall_mem_append, List.forall_mem_map, LineCall.isOneLine_line]

theorem splitLines_run_iff {script : LineScript} :
    splitLines script.run.text = script.lines ++ [""] ↔ script.IsPlain := by
  rw [← lines_run, splitLines_text_iff, lines_run, forall_lines_iff]
  exact ⟨fun h => ⟨h.1, h.2⟩, fun h => ⟨h.nonempty, h.texts⟩⟩

theorem text_eq_iff_lines_eq {script other : LineScript} (h : script.IsPlain)
    (hother : other.IsPlain) :
    script.run.text = other.run.text ↔ script.lines = other.lines := by
  constructor
  · intro htext
    have hlines : script.lines ++ [""] = other.lines ++ [""] := by
      rw [← splitLines_run_iff.2 h, ← splitLines_run_iff.2 hother, htext]
    exact List.append_cancel_right hlines
  · intro hlines
    rw [Lines.text, Lines.text, lines_run, lines_run, hlines]

end LineScript

/-- A run has one line for the header and one for each call.  Its text gives the lines back exactly
if there are any and no text has a line feed, and such texts are the same only for the same
lines. -/
theorem run_keeps_appended_lines (script : LineScript) :
    script.run.length = script.header.toList.length + script.calls.length ∧
      (splitLines script.run.text = script.lines ++ [""] ↔ script.IsPlain) ∧
      (script.IsPlain → ∀ other : LineScript, other.IsPlain →
        (script.run.text = other.run.text ↔ script.lines = other.lines)) := by
  have hlength : script.run.length = script.header.toList.length + script.calls.length := by
    rw [Lines.length, LineScript.lines_run, LineScript.lines, List.length_append, List.length_map]
  exact ⟨hlength, LineScript.splitLines_run_iff, fun h _ => LineScript.text_eq_iff_lines_eq h⟩

example : (LineScript.run ⟨some "flowchart TD", [.statement "a --> b", .nested 1 "- item"]⟩).text =
    "flowchart TD\n    a --> b\n  - item\n" := by
  decide

/-- A script with a header, a statement, a line nested far too deep and an empty line. -/
def deepScript : LineScript :=
  ⟨some "flowchart TD", [.statement "a --> b", .nested (2 ^ 64 - 1) "- deep", .push ""]⟩

/-- The same lines by other calls. -/
def cappedScript : LineScript :=
  ⟨none, [.push "flowchart TD", .push "    a --> b", .nested 32 "- deep", .nested 0 ""]⟩

theorem deepScript_reads_as_cappedScript :
    deepScript.IsPlain ∧ cappedScript.IsPlain ∧ deepScript.run.text = cappedScript.run.text := by
  have hdeep : deepScript.IsPlain := ⟨by simp [deepScript, LineScript.lines], by decide⟩
  have hcapped : cappedScript.IsPlain := ⟨by simp [cappedScript, LineScript.lines], by decide⟩
  have hlines : deepScript.lines = cappedScript.lines := by decide
  have htexts := (run_keeps_appended_lines deepScript).2.2 hdeep cappedScript hcapped
  exact ⟨hdeep, hcapped, htexts.2 hlines⟩

end ManifestAtlas
