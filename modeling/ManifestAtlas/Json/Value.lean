import ManifestAtlas.Json.Number
import ManifestAtlas.Json.Sequence

/-!
# JSON values

Values of any shape, how they are read and how they are written.  An object
keeps all its members in order, repeated keys included.  A text may nest
brackets up to a fixed depth.  Writing puts no space between tokens.
-/

namespace ManifestAtlas.Json

/-- A JSON value. -/
inductive Value where
  | null
  | boolean (value : Bool)
  | number (value : Number)
  | string (value : String)
  | array (entries : List Value)
  | object (members : List (String × Value))
  deriving Repr

/-- The number of brackets that may be open at a time. -/
def maxDepth : Nat := 127

/-- Reads a value other than an array or an object, which starts with `c`. -/
def scalar {bound : Nat} (c : Char) (rest : List Char) (h : rest.length < bound) :
    Except Failure (Read bound Value) :=
  if c = 'n' then literal .null "ull".toList rest h
  else if c = 't' then literal (.boolean true) "rue".toList rest h
  else if c = 'f' then literal (.boolean false) "alse".toList rest h
  else if c = '"' then (stringRest [] rest h).map (Read.map .string)
  else if opensNumeral c then (number c rest h).map (Read.map .number)
  else .error (.on .expectedValue c rest)

/-- Reads a value that opens at most `depth` brackets inside each other. -/
def valueWithin : (depth : Nat) → Reader Value
  | 0, text =>
    match ahead text with
    | .done => .error (.atEnd .eofValue)
    | .next c rest h =>
      if c = '[' ∨ c = '\x7b' then .error (.on .tooDeep c rest) else scalar c rest h
  | depth + 1, text =>
    match ahead text with
    | .done => .error (.atEnd .eofValue)
    | .next c rest h =>
      if c = '[' then (entries (valueWithin depth) rest h).map (Read.map .array)
      else if c = '\x7b' then
        let member (before : List (String × Value)) (key : String) :
            Reader (List (String × Value)) :=
          afterColon ((valueWithin depth).map fun v => (key, v) :: before)
        (members member [] rest h).map (Read.map fun all => .object all.reverse)
      else scalar c rest h

/-- Reads a value of any shape. -/
def value : Reader Value :=
  valueWithin maxDepth

mutual

/-- The text of a value. -/
def Value.print : Value → List Char
  | .null => "null".toList
  | .boolean true => "true".toList
  | .boolean false => "false".toList
  | .number n => n.print.toList
  | .string s => printString s
  | .array vs => '[' :: (printEntries true vs ++ [']'])
  | .object ms => '\x7b' :: (printMembers true ms ++ ['\x7d'])

/-- The text of the entries of an array, with a comma in front of all but the first. -/
def printEntries (first : Bool) : List Value → List Char
  | [] => []
  | v :: vs => (if first then [] else [',']) ++ v.print ++ printEntries false vs

/-- The text of the members of an object, with a comma in front of all but the first. -/
def printMembers (first : Bool) : List (String × Value) → List Char
  | [] => []
  | (key, v) :: ms =>
    (if first then [] else [',']) ++ printString key ++ ':' :: v.print ++ printMembers false ms

end

/-- Reads a whole text with a reader; only space may follow the value. -/
def readWhole {α : Type} (reader : Reader α) (text : String) : Except Failure α := do
  let r ← reader text.toList
  match ahead r.rest with
  | .done => .ok r.value
  | .next c rest _ => .error (.on .trailingCharacters c rest)

end ManifestAtlas.Json
