import ManifestAtlas.Text.CharTables

/-!
# Quoted text in messages

A text inside a message stands between double quotes, with the usual escapes
for quotes, backslashes and line ends; characters that cannot be seen are shown
by their number, as in `\u\x7b7f\x7d`.
-/

namespace ManifestAtlas

/-- Whether a quoted text shows the character by its number. -/
def isUnprintable (c : Char) : Bool :=
  if c.toNat < 0x7F then c.toNat < 0x20 else inIntervals c.toNat unprintableIntervals

/-- A character inside a quoted text. -/
def quoteChar (c : Char) : List Char :=
  match c with
  | '\x00' => ['\\', '0']
  | '\t' => ['\\', 't']
  | '\r' => ['\\', 'r']
  | '\n' => ['\\', 'n']
  | '\\' => ['\\', '\\']
  | '"' => ['\\', '"']
  | c =>
    if isUnprintable c then "\\u\x7b".toList ++ Nat.toDigits 16 c.toNat ++ ['\x7d'] else [c]

/-- A text between double quotes. -/
def quoted (text : String) : String :=
  String.ofList ('"' :: (text.toList.flatMap quoteChar ++ ['"']))

end ManifestAtlas
