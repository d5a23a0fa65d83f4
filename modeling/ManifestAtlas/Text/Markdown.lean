import ManifestAtlas.Mermaid.Label

/-!
# Text of the Markdown outline

Two ways to put free text on one line of an outline.  `escapeOutline` is the
label escape with brackets and parentheses replaced by their full-width forms,
since mind-map readers take the plain ones for node shapes.  `inlineCode`
makes a code span: every kind of line break becomes `<br/>`, and text that
holds a backtick gets two of them on each side, with a space between.

Main statement: an inline-code span holds no line feed and no carriage return
(`inlineCode_breakFree`).
-/

namespace ManifestAtlas

/-- The full-width form of a bracket or parenthesis, and any other character as it is. -/
def widenBracket : Char → Char
  | '(' => '（'
  | ')' => '）'
  | '[' => '［'
  | ']' => '］'
  | c => c

/-- Escapes text for a heading or bullet of the outline. -/
def escapeOutline (text : String) : String :=
  String.ofList ((escapeLabelChars text.toList).map widenBracket)

/-- The character that delimits a code span. -/
def backtick : Char := '\x60'

/-- The text with every line break, of whatever kind, replaced by the break token. -/
def joinLines (text : List Char) : List Char :=
  let pairs := replacePair '\r' '\n' lineBreak text
  pairs.flatMap fun c => if c = '\r' ∨ c = '\n' then lineBreak else [c]

/-- The text as a code span on one line. -/
def inlineCode (text : String) : String :=
  let body := joinLines text.toList
  let span := if backtick ∈ body then "`` ".toList ++ body ++ " ``".toList
    else backtick :: (body ++ [backtick])
  String.ofList span

/-- Whether a character leaves the line as it is. -/
def staysOnLine (c : Char) : Bool :=
  c != '\r' && c != '\n'

theorem ne_of_staysOnLine (text : List Char) (h : text.all staysOnLine = true) {c : Char}
    (hc : c ∈ text) : c ≠ '\r' ∧ c ≠ '\n' := by
  simpa [staysOnLine] using List.all_eq_true.1 h c hc

theorem joinLines_breakFree {text : List Char} {c : Char} (h : c ∈ joinLines text) :
    c ≠ '\r' ∧ c ≠ '\n' := by
  obtain ⟨x, _, hx⟩ := List.mem_flatMap.1 h
  split at hx
  · exact ne_of_staysOnLine lineBreak (by decide) hx
  · rename_i hne
    rw [List.mem_singleton.1 hx]
    exact not_or.1 hne

theorem inlineCode_breakFree {text : String} {c : Char} (h : c ∈ (inlineCode text).toList) :
    c ≠ '\r' ∧ c ≠ '\n' := by
  rw [inlineCode, String.toList_ofList] at h
  split at h
  · rcases List.mem_append.1 h with h | h
    · rcases List.mem_append.1 h with h | h
      · exact ne_of_staysOnLine "`` ".toList (by decide) h
      · exact joinLines_breakFree h
    · exact ne_of_staysOnLine " ``".toList (by decide) h
  · rcases List.mem_cons.1 h with rfl | h
    · decide
    · rcases List.mem_append.1 h with h | h
      · exact joinLines_breakFree h
      · rw [List.mem_singleton.1 h]
        decide

end ManifestAtlas
