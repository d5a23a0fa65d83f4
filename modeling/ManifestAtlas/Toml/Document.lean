import ManifestAtlas.Toml.Number

/-!
# TOML documents

A document is a list of statements: pairs of a key and a value, and headers
that open a table or an entry of an array of tables.  Statements are read
first; what tables they make up together is a matter of its own.

Values nest through arrays and inline tables, up to a fixed depth.
-/

namespace ManifestAtlas.Toml

/-- A TOML value. -/
inductive Value where
  | string (value : String)
  | boolean (value : Bool)
  | quantity (value : Quantity)
  | array (entries : List Value)
  | table (members : List (String × Value))
  deriving Repr

/-- A value as it is written: a table by its pairs, in which keys may have several parts. -/
inductive Expression where
  | string (value : String)
  | boolean (value : Bool)
  | quantity (value : Quantity)
  | array (entries : List Expression)
  | inlineTable (pairs : List (List String × Expression))
  deriving Repr

/-- A statement of a document. -/
inductive Statement where
  | pair (key : List String) (value : Expression)
  | table (key : List String)
  | tableEntry (key : List String)
  deriving Repr

/-- Reads the entries of an array after its opening bracket; `fuel` bounds their number. -/
def arrayRest (entry : Reader Expression) : (fuel : Nat) → Reader (List Expression)
  | 0, _ => none
  | fuel + 1, text =>
    match skipLayout (text.length + 1) text with
    | ']' :: rest => some ([], rest)
    | text => do
      let (first, rest) ← entry text
      match skipLayout (rest.length + 1) rest with
      | ',' :: rest => do
        let (more, rest) ← arrayRest entry fuel rest
        some (first :: more, rest)
      | ']' :: rest => some ([first], rest)
      | _ => none

/-- Reads a key, an equals sign and a value. -/
def pairWith (value : Reader Expression) : Reader (List String × Expression) := fun text => do
  let (name, rest) ← key text
  match skipGap rest with
  | '=' :: rest => do
    let (v, rest) ← value (skipGap rest)
    some ((name, v), rest)
  | _ => none

/-- Reads the pairs of an inline table, of which there is at least one; `fuel` bounds their
number. -/
def inlinePairs (value : Reader Expression) :
    (fuel : Nat) → Reader (List (List String × Expression))
  | 0, _ => none
  | fuel + 1, text => do
    let (first, rest) ← pairWith value text
    match skipGap rest with
    | ',' :: rest => do
      let (more, rest) ← inlinePairs value fuel rest
      some (first :: more, rest)
    | '\x7d' :: rest => some ([first], rest)
    | _ => none

/-- Reads an inline table after its opening bracket. -/
def inlineRest (value : Reader Expression) : Reader (List (List String × Expression)) := fun text =>
  match skipGap text with
  | '\x7d' :: rest => some ([], rest)
  | rest => inlinePairs value (rest.length + 1) rest

/-- Reads a value other than an array or an inline table. -/
def plainValue : Reader Expression
  | 't' :: 'r' :: 'u' :: 'e' :: rest => some (.boolean true, rest)
  | 'f' :: 'a' :: 'l' :: 's' :: 'e' :: rest => some (.boolean false, rest)
  | c :: rest =>
    if c = '"' ∨ c = '\'' then (string (c :: rest)).map fun (s, rest) => (.string s, rest)
    else (quantity (c :: rest)).map fun (q, rest) => (.quantity q, rest)
  | [] => none

/-- Reads a value with at most `depth` brackets inside each other. -/
def valueWithin : (depth : Nat) → Reader Expression
  | _, [] => none
  | 0, c :: rest => if c = '[' ∨ c = '\x7b' then none else plainValue (c :: rest)
  | depth + 1, c :: rest =>
    if c = '[' then
      (arrayRest (valueWithin depth) (rest.length + 1) rest).map fun (vs, rest) => (.array vs, rest)
    else if c = '\x7b' then
      (inlineRest (valueWithin depth) rest).map fun (ps, rest) => (.inlineTable ps, rest)
    else plainValue (c :: rest)

/-- Reads a value. -/
def value : Reader Expression :=
  valueWithin (nestingLimit - 1)

/-- Reads the statement that a line starts with, which is not empty. -/
def statement : Reader Statement
  | '[' :: '[' :: rest => do
    let (name, rest) ← key rest
    match skipGap rest with
    | ']' :: ']' :: rest => some (.tableEntry name, rest)
    | _ => none
  | '[' :: rest => do
    let (name, rest) ← key rest
    match skipGap rest with
    | ']' :: rest => some (.table name, rest)
    | _ => none
  | text => (pairWith value text).map fun ((name, v), rest) => (.pair name v, rest)

/-- The text after the end of a line, with a comment in front if there is one. -/
def finishLine (text : List Char) : Option (List Char) :=
  match skipComment (skipGap text) with
  | [] => some []
  | rest => lineEnd? rest

/-- Reads the statements of a document, line by line; `fuel` bounds the number of lines. -/
def statements : (fuel : Nat) → List Char → Option (List Statement)
  | 0, _ => none
  | fuel + 1, text =>
    match skipGap text with
    | [] => some []
    | c :: rest =>
      if c = '#' ∨ c = '\n' ∨ c = '\r' then do statements fuel (← finishLine (c :: rest))
      else do
        let (first, rest) ← statement (c :: rest)
        let more ← statements fuel (← finishLine rest)
        some (first :: more)

/-- Reads the statements of a whole text, past a byte-order mark. -/
def parse (text : String) : Option (List Statement) :=
  let chars := match text.toList with
    | '\ufeff' :: rest => rest
    | chars => chars
  statements (chars.length + 1) chars

end ManifestAtlas.Toml
