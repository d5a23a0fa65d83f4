import ManifestAtlas.Json.Value
import ManifestAtlas.Text.Quote

/-!
# Codecs

A `Codec` reads values of one type from a JSON text and writes them back.  The
codecs of this module are for texts, booleans, integers, lists, optional values
and enumerations; records have a module of their own.

A codec that meets a value of another kind says what it found and what it
wanted.  Scalars are read before they are named, so that a malformed one is
reported as such, while a bracket is named without looking inside.
-/

namespace ManifestAtlas.Json

/-- How values of a type are read and written. -/
structure Codec (α : Type) where
  read : Reader α
  write : α → Value

/-- The complaint about a value that starts with `c`, where something else was wanted. -/
def mismatch (wanted : String) (c : Char) (rest : List Char) : Failure :=
  let name (found : Except Failure (Read (rest.length + 1) Found)) : Failure :=
    match found with
    | .ok r => .before (.invalidType r.value wanted) r.rest
    | .error failure => failure
  have h : rest.length < rest.length + 1 := length_lt_succ rest
  if c = 'n' then name (literal .null "ull".toList rest h)
  else if c = 't' then name (literal (.boolean true) "rue".toList rest h)
  else if c = 'f' then name (literal (.boolean false) "alse".toList rest h)
  else if c = '"' then
    name ((stringRest [] rest h).map (Read.map fun s => .string (quoted s)))
  else if opensNumeral c then name ((number c rest h).map (Read.map Number.found))
  else if c = '[' then .before (.invalidType .sequence wanted) (c :: rest)
  else if c = '\x7b' then .before (.invalidType .map wanted) (c :: rest)
  else .on .expectedValue c rest

namespace Codec

/-- Texts. -/
def text : Codec String where
  read := fun text =>
    match ahead text with
    | .done => .error (.atEnd .eofValue)
    | .next c rest h =>
      if c = '"' then stringRest [] rest h else .error (mismatch "a string" c rest)
  write := .string

/-- Booleans. -/
def boolean : Codec Bool where
  read := fun text =>
    match ahead text with
    | .done => .error (.atEnd .eofValue)
    | .next c rest h =>
      if c = 't' then literal true "rue".toList rest h
      else if c = 'f' then literal false "alse".toList rest h
      else .error (mismatch "a boolean" c rest)
  write := .boolean

/-- Integers of a type with a bounded range, which `narrow?` checks. -/
def integer {α : Type} (wanted : String) (narrow? : Int → Option α) (widen : α → Int) :
    Codec α where
  read := fun text =>
    match ahead text with
    | .done => .error (.atEnd .eofValue)
    | .next c rest h =>
      if opensNumeral c then do
        let r ← number c rest h
        match r.value with
        | .integer n =>
          match narrow? n with
          | some value => .ok ⟨value, r.rest, r.shorter⟩
          | none => .error (.before (.invalidInteger n wanted) r.rest)
        | other => .error (.before (.invalidType other.found wanted) r.rest)
      else .error (mismatch wanted c rest)
  write := fun a => .number (.integer (widen a))

/-- Lists, as arrays. -/
def list {α : Type} (entry : Codec α) : Codec (List α) where
  read := fun text =>
    match ahead text with
    | .done => .error (.atEnd .eofValue)
    | .next c rest h =>
      if c = '[' then entries entry.read rest h else .error (mismatch "a sequence" c rest)
  write := fun all => .array (all.map entry.write)

/-- Values that may be missing, as `null`. -/
def optional {α : Type} (inner : Codec α) : Codec (Option α) where
  read := fun text =>
    match ahead text with
    | .next 'n' rest h => literal none "ull".toList rest h
    | _ => (inner.read text).map (Read.map some)
  write
    | none => .null
    | some a => inner.write a

/-- The value that goes by a name. -/
def named? {α : Type} (names : List (String × α)) (name : String) : Option α :=
  (names.find? fun entry => entry.1 = name).map Prod.snd

/-- The value of an enumeration that goes by the name that was read. -/
def resolveName {α : Type} {bound : Nat} (names : List (String × α)) (r : Read bound String) :
    Except Failure (Read bound α) :=
  match named? names r.value with
  | some value => .ok ⟨value, r.rest, r.shorter⟩
  | none => .error (.before (.unknownVariant r.value (names.map Prod.fst)) r.rest)

/-- Reads the value `null`. -/
def readNull : Reader Unit := fun text =>
  match ahead text with
  | .done => .error (.atEnd .eofValue)
  | .next c rest h =>
    if c = 'n' then literal () "ull".toList rest h else .error (mismatch "unit" c rest)

/-- Reads the name that is the first key of an object. -/
def nextName {α : Type} (names : List (String × α)) : Reader α := fun text => do
  let key ← nextKey true text
  match key.value with
  | some name => resolveName names ⟨name, key.rest, key.shorter⟩
  | none => .error (.on .expectedValue '\x7d' key.rest)

/-- Reads the rest of an object whose only key is a name and whose value is `null`. -/
def readNamedNull {α : Type} (names : List (String × α)) : Reader α := fun text => do
  let name ← nextName names text
  let unit ← afterColon readNull name.rest
  match ahead unit.rest with
  | .done => .error (.atEnd .eofObject)
  | .next c rest h =>
    if c = '\x7d' then
      .ok ⟨name.value, rest, Nat.lt_trans h (Nat.lt_trans unit.shorter name.shorter)⟩
    else .error (.before .expectedValue (c :: rest))

/-- The values of an enumeration by their names, written as texts. -/
def choice {α : Type} (names : List (String × α)) (name : α → String) : Codec α where
  read := fun text =>
    match ahead text with
    | .done => .error (.atEnd .eofValue)
    | .next c rest h =>
      if c = '"' then (stringRest [] rest h).bind (resolveName names)
      else if c = '\x7b' then (readNamedNull names rest).map fun r => r.within (rest_length_le h)
      else .error (.on .expectedValue c rest)
  write := fun a => .string (name a)

/-- Decodes a whole text. -/
def decode {α : Type} (codec : Codec α) (text : String) : Except Failure α :=
  readWhole codec.read text

/-- The text of a value. -/
def encode {α : Type} (codec : Codec α) (a : α) : String :=
  String.ofList (codec.write a).print

end Codec

end ManifestAtlas.Json
