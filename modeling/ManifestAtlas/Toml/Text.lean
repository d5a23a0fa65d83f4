/-!
# Characters, strings and keys of TOML

The smallest parts of a TOML document: blanks, comments and line ends, the four
kinds of strings, and keys.  Every reader takes what it can off the front of a
text and returns it with the rest; nothing is returned for a malformed text.
-/

namespace ManifestAtlas.Toml

/-- A way to take a value off the front of a text. -/
abbrev Reader (α : Type) := List Char → Option (α × List Char)

/-- Spaces and tabs. -/
def isGap (c : Char) : Bool :=
  c == ' ' || c == '\t'

/-- The characters that may stand in comments and on a line of a string. -/
def isLineChar (c : Char) : Bool :=
  c == '\t' || (0x20 ≤ c.toNat && c.toNat ≠ 0x7F)

/-- The text without the gap in front. -/
def skipGap (text : List Char) : List Char :=
  text.dropWhile isGap

/-- The text after the line end in front, if there is one. -/
def lineEnd? : List Char → Option (List Char)
  | '\n' :: rest => some rest
  | '\r' :: '\n' :: rest => some rest
  | _ => none

/-- The text without the comment in front, if there is one. -/
def skipComment : List Char → List Char
  | '#' :: rest => rest.dropWhile isLineChar
  | text => text

/-- The text without gaps and line ends in front. -/
def skipLines : List Char → List Char
  | '\r' :: '\n' :: rest => skipLines rest
  | c :: rest => if isGap c || c == '\n' then skipLines rest else c :: rest
  | [] => []

/-- The text without gaps, line ends and comments in front.  Each round passes one comment. -/
def skipLayout : (rounds : Nat) → List Char → List Char
  | 0, text => text
  | rounds + 1, text =>
    match skipLines text with
    | '#' :: rest => skipLayout rounds (rest.dropWhile isLineChar)
    | rest => rest

/-- The value of a hexadecimal digit. -/
def hexDigit? (c : Char) : Option Nat :=
  if c.isDigit then some (c.toNat - '0'.toNat)
  else if 'a' ≤ c ∧ c ≤ 'f' then some (c.toNat - 'a'.toNat + 10)
  else if 'A' ≤ c ∧ c ≤ 'F' then some (c.toNat - 'A'.toNat + 10)
  else none

/-- The character whose number has the given hexadecimal digits. -/
def charOfHex? (digits : List Char) : Option Char := do
  let n ← digits.foldlM (fun n c => (hexDigit? c).map (n * 16 + ·)) 0
  if n.isValidChar then some (Char.ofNat n) else none

/-- The character that a short escape stands for. -/
def shortEscape? : Char → Option Char
  | 'b' => some '\x08'
  | 't' => some '\t'
  | 'n' => some '\n'
  | 'f' => some '\x0c'
  | 'r' => some '\r'
  | '"' => some '"'
  | '\\' => some '\\'
  | _ => none

/-- Reads what follows the backslash of an escape. -/
def escape : Reader Char
  | 'u' :: a :: b :: c :: d :: rest => do some (← charOfHex? [a, b, c, d], rest)
  | 'U' :: a :: b :: c :: d :: e :: f :: g :: h :: rest => do
    some (← charOfHex? [a, b, c, d, e, f, g, h], rest)
  | c :: rest => do some (← shortEscape? c, rest)
  | [] => none

/-- Reads the rest of a string with escapes, after its opening quote; `fuel` bounds its length. -/
def basicRest : (fuel : Nat) → (before : List Char) → Reader String
  | 0, _, _ => none
  | _ + 1, _, [] => none
  | fuel + 1, before, c :: rest =>
    if c = '"' then some (String.ofList before.reverse, rest)
    else if c = '\\' then do
      let (e, rest) ← escape rest
      basicRest fuel (e :: before) rest
    else if isLineChar c then basicRest fuel (c :: before) rest
    else none

/-- Reads the rest of a string without escapes, after its opening quote. -/
def literalRest : (before : List Char) → Reader String
  | _, [] => none
  | before, c :: rest =>
    if c = '\'' then some (String.ofList before.reverse, rest)
    else if isLineChar c then literalRest (c :: before) rest
    else none

/-- Looks for three quotes that close a string of several lines.  Of more than three quotes in a
row, at most two belong to the string. -/
def closing? (quote : Char) (text : List Char) : Option (List Char × List Char) :=
  let row := text.takeWhile (· == quote)
  let inside := min (row.length - 3) 2
  if 3 ≤ row.length then some (List.replicate inside quote, text.drop (inside + 3)) else none

/-- Reads the rest of a string of several lines with escapes; `fuel` bounds its length. -/
def basicLinesRest : (fuel : Nat) → (before : List Char) → Reader String
  | 0, _, _ => none
  | fuel + 1, before, text =>
    match closing? '"' text with
    | some (inside, rest) => some (String.ofList (before.reverse ++ inside), rest)
    | none =>
      match lineEnd? text with
      | some rest => basicLinesRest fuel ('\n' :: before) rest
      | none =>
        match text with
        | [] => none
        | '\\' :: rest =>
          match lineEnd? (skipGap rest) with
          | some rest => basicLinesRest fuel before (skipLines rest)
          | none => do
            let (e, rest) ← escape rest
            basicLinesRest fuel (e :: before) rest
        | c :: rest => if isLineChar c then basicLinesRest fuel (c :: before) rest else none

/-- Reads the rest of a string of several lines without escapes; `fuel` bounds its length. -/
def literalLinesRest : (fuel : Nat) → (before : List Char) → Reader String
  | 0, _, _ => none
  | fuel + 1, before, text =>
    match closing? '\'' text with
    | some (inside, rest) => some (String.ofList (before.reverse ++ inside), rest)
    | none =>
      match lineEnd? text with
      | some rest => literalLinesRest fuel ('\n' :: before) rest
      | none =>
        match text with
        | [] => none
        | c :: rest => if isLineChar c then literalLinesRest fuel (c :: before) rest else none

/-- The text without the line end in front, if there is one. -/
def skipLineEnd (text : List Char) : List Char :=
  (lineEnd? text).getD text

/-- Reads a string of any kind. -/
def string : Reader String
  | '"' :: '"' :: '"' :: rest => basicLinesRest (rest.length + 1) [] (skipLineEnd rest)
  | '\'' :: '\'' :: '\'' :: rest => literalLinesRest (rest.length + 1) [] (skipLineEnd rest)
  | '"' :: rest => basicRest (rest.length + 1) [] rest
  | '\'' :: rest => literalRest [] rest
  | _ => none

/-- The characters of keys without quotes. -/
def isKeyChar (c : Char) : Bool :=
  c.isAlphanum || c == '_' || c == '-'

/-- Reads one part of a key. -/
def keyPart : Reader String
  | '"' :: rest => basicRest (rest.length + 1) [] rest
  | '\'' :: rest => literalRest [] rest
  | text =>
    let name := text.takeWhile isKeyChar
    if name.isEmpty then none else some (String.ofList name, text.drop name.length)

/-- The number of parts that a key may not reach, and of brackets inside each other. -/
def nestingLimit : Nat := 80

/-- Reads a key of one or more parts with dots between them; `parts` bounds their number. -/
def keyWithin : (parts : Nat) → Reader (List String)
  | 0, _ => none
  | parts + 1, text => do
    let (name, rest) ← keyPart (skipGap text)
    match skipGap rest with
    | '.' :: rest => do
      let (names, rest) ← keyWithin parts rest
      some (name :: names, rest)
    | rest => some ([name], rest)

/-- Reads a key. -/
def key : Reader (List String) :=
  keyWithin (nestingLimit - 1)

end ManifestAtlas.Toml
