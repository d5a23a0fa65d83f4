import Mathlib
import ManifestAtlas.Mermaid.Label
import ManifestAtlas.Mermaid.NodeId
import ManifestAtlas.Text.Lines

/-!
# Texts and their lines

A text is taken apart at its line feeds by `splitLines`.  A text that was put
together from lines without line feeds falls apart into these lines and an
empty piece behind the last of them (`splitLines_text`).

The rest of the module says which parts of a diagram have no line feed:
escaped labels (`isOneLine_escapeLabel`), words of a node identifier
(`isOneLine_of_isNodeChar`), numbers (`isOneLine_repr`), and whatever is put
together from such parts (`isOneLine_append`).
-/

namespace ManifestAtlas

/-- The pieces of a text between its line feeds. -/
def splitLines (text : String) : List String :=
  (text.toList.splitOn '\n').map String.ofList

/-- A text without line feeds. -/
def IsOneLine (text : String) : Prop :=
  '\n' ∉ text.toList

instance (text : String) : Decidable (IsOneLine text) :=
  inferInstanceAs (Decidable (_ ∉ _))

/-! ## Taking a text apart -/

/-- The line feed at the end of a text stands in front of an empty line. -/
private theorem toList_text {lines : List String} (hne : lines ≠ []) :
    (Lines.text ⟨lines⟩).toList = ['\n'].intercalate ((lines ++ [""]).map String.toList) := by
  induction lines with
  | nil => exact absurd rfl hne
  | cons line lines ih =>
    cases lines with
    | nil => simp [Lines.text, List.intercalate_cons_cons]
    | cons second lines =>
      have hrest := ih (List.cons_ne_nil second lines)
      simp only [Lines.text, String.intercalate_cons_cons, String.toList_append, List.cons_append,
        List.map_cons, List.intercalate_cons_cons, List.append_assoc] at hrest ⊢
      rw [hrest]
      rfl

/-- A text of at least one line falls apart into its lines and an empty piece behind them. -/
theorem splitLines_text {l : Lines} (hne : l.lines ≠ []) (h : ∀ line ∈ l.lines, IsOneLine line) :
    splitLines l.text = l.lines ++ [""] := by
  have hparts : ∀ chars ∈ (l.lines ++ [""]).map String.toList, '\n' ∉ chars := by
    intro chars hchars
    obtain ⟨line, hline, rfl⟩ := List.mem_map.1 hchars
    rcases List.mem_append.1 hline with hline | hline
    · exact h line hline
    · rw [List.mem_singleton.1 hline]
      decide
  rw [splitLines, toList_text hne, List.splitOn_intercalate '\n' hparts (by simp), List.map_map]
  simp [Function.comp_def]

/-- The lines of a header and statements. -/
theorem splitLines_statements {header : String} {texts : List String} (hheader : IsOneLine header)
    (h : ∀ line ∈ texts.map Lines.statementLine, IsOneLine line) :
    splitLines ((Lines.headed header).statements texts).text =
      header :: texts.map Lines.statementLine ++ [""] := by
  refine splitLines_text (List.cons_ne_nil _ _) fun line hline => ?_
  rcases List.mem_cons.1 hline with rfl | hline
  · exact hheader
  · exact h line hline

/-- What holds of the empty text, and of two texts in a row if it holds of each, holds of joined
texts. -/
theorem intercalate_of_append {P : String → Prop} (hempty : P "")
    (happend : ∀ {a b : String}, P a → P b → P (a ++ b)) {separator : String} {parts : List String}
    (hseparator : P separator) (h : ∀ part ∈ parts, P part) :
    P (separator.intercalate parts) := by
  induction parts with
  | nil =>
    rw [String.intercalate_nil]
    exact hempty
  | cons part parts ih =>
    have hpart := h part List.mem_cons_self
    have hrest := ih fun other hother => h other (List.mem_cons_of_mem _ hother)
    cases parts with
    | nil =>
      rw [String.intercalate_singleton]
      exact hpart
    | cons second parts =>
      rw [String.intercalate_cons_cons]
      exact happend (happend hpart hseparator) hrest

/-! ## Texts without line feeds -/

@[simp] theorem isOneLine_append {a b : String} :
    IsOneLine (a ++ b) ↔ IsOneLine a ∧ IsOneLine b := by
  simp [IsOneLine]

/-- Parts without line feeds are joined by a separator without one. -/
theorem isOneLine_intercalate {separator : String} {parts : List String}
    (hseparator : IsOneLine separator) (h : ∀ part ∈ parts, IsOneLine part) :
    IsOneLine (separator.intercalate parts) :=
  intercalate_of_append (by decide) (fun ha hb => isOneLine_append.2 ⟨ha, hb⟩) hseparator h

theorem isOneLine_escapeLabel (text : String) : IsOneLine (escapeLabel text) := by
  simpa [IsOneLine, escapeLabel] using lineFeed_notMem_escapeLabelChars text.toList

theorem quote_notMem_escapeLabel (text : String) : '"' ∉ (escapeLabel text).toList := by
  simpa [escapeLabel] using quote_notMem_escapeLabelChars text.toList

/-- The decimal digits of a number stand on one line. -/
theorem isOneLine_repr (n : Nat) : IsOneLine n.repr := by
  intro hmem
  rw [Nat.toList_repr] at hmem
  have hdigit := Nat.isDigit_of_mem_toDigits (by decide) (by decide) hmem
  exact absurd hdigit (by decide)

theorem isOneLine_of_isNodeChar {text : String} (h : ∀ c ∈ text.toList, isNodeChar c = true) :
    IsOneLine text := by
  intro hmem
  exact absurd (h _ hmem) (by decide)

/-! ## Lines of diagrams -/

/-- The line of an arrow between two names. -/
def arrowLine (source target : String) : String :=
  "    " ++ source ++ " --> " ++ target

theorem isOneLine_arrowLine {source target : String} (hsource : IsOneLine source)
    (htarget : IsOneLine target) : IsOneLine (arrowLine source target) := by
  simp only [arrowLine, isOneLine_append]
  exact ⟨⟨⟨by decide, hsource⟩, by decide⟩, htarget⟩

end ManifestAtlas
