import ManifestAtlas.Text.Replace

/-!
# Label text of diagrams

Text between double quotes in a diagram: a backslash is doubled, a double
quote becomes a single one, and a line break becomes the token `<br/>` that
diagrams understand inside labels.  A carriage return on its own is kept.

Main statement: an escaped label holds neither a double quote nor a line feed
(`quote_notMem_escapeLabelChars`, `lineFeed_notMem_escapeLabelChars`).
-/

namespace ManifestAtlas

/-- The token that breaks a line inside a label. -/
def lineBreak : List Char := "<br/>".toList

/-- `escapeLabel` on lists of characters: four substitutions, one after the other. -/
def escapeLabelChars (text : List Char) : List Char :=
  let slashes := replaceChar '\\' ['\\', '\\'] text
  let quotes := replaceChar '"' ['\''] slashes
  let pairs := replacePair '\r' '\n' lineBreak quotes
  replaceChar '\n' lineBreak pairs

/-- Escapes text for a label between double quotes. -/
def escapeLabel (text : String) : String :=
  String.ofList (escapeLabelChars text.toList)

theorem quote_notMem_escapeLabelChars (text : List Char) : '"' ∉ escapeLabelChars text :=
  notMem_replaceChar_of_notMem (by decide)
    (notMem_replacePair_of_notMem (by decide) (notMem_replaceChar (by decide) _))

theorem lineFeed_notMem_escapeLabelChars (text : List Char) : '\n' ∉ escapeLabelChars text :=
  notMem_replaceChar (by decide) _

end ManifestAtlas
