/-!
# Blank characters and blank text

Which characters count as white space and which as control characters, and
when a whole text counts as blank.  The white-space class is the Unicode
property `White_Space`; the control class is the Unicode category `Cc`.

Main statements: every character that the core library calls white space is
blank (`isBlank_of_isWhitespace`), and a text is blank exactly when all its
characters are (`isBlankText_iff`).
-/

namespace ManifestAtlas

/-- Membership in the Unicode property `White_Space`. -/
def isBlank (c : Char) : Bool :=
  let n := c.toNat
  (0x09 ≤ n && n ≤ 0x0D) || n == 0x20 || n == 0x85 || n == 0xA0 || n == 0x1680 ||
    (0x2000 ≤ n && n ≤ 0x200A) || n == 0x2028 || n == 0x2029 || n == 0x202F ||
    n == 0x205F || n == 0x3000

/-- Membership in the Unicode category of control characters. -/
def isControl (c : Char) : Bool :=
  let n := c.toNat
  n < 0x20 || (0x7F ≤ n && n ≤ 0x9F)

/-- A text without any visible character: empty, or white space only. -/
def isBlankText (text : String) : Bool :=
  text.toList.all isBlank

theorem isBlank_of_isWhitespace {c : Char} (h : c.isWhitespace = true) : isBlank c = true := by
  simp only [Char.isWhitespace, Bool.or_eq_true, decide_eq_true_eq] at h
  rcases h with ((h | h) | h) | h <;> subst h <;> decide

theorem isBlankText_iff {text : String} :
    isBlankText text = true ↔ ∀ c ∈ text.toList, isBlank c = true := by
  simp [isBlankText]

/-- An optional text that is present and not blank. -/
def visible? (text : Option String) : Option String :=
  text.filter fun t => !isBlankText t

/-- An optional text that is present and not empty. -/
def nonempty? (text : Option String) : Option String :=
  text.filter fun t => !t.isEmpty

end ManifestAtlas
