import ManifestAtlas.Json.Record

/-!
# Formats

A `Format` describes how the values of a type stand in a JSON text: as texts,
numbers, lists, records and so on.  It is data that can be walked over, field by
field; the codec that reads and writes is built from it by `Format.codec`.

The fields of a record type are listed once, with their keys and their
defaults.  A collection of values under keys is described by a `Keyed`, which
says how it takes up one entry after the other.
-/

namespace ManifestAtlas.Json

/-- A collection of values under keys: without entries, with one more entry, and its entries. -/
structure Keyed (σ α : Type) where
  empty : σ
  insert : σ → String → α → σ
  entries : σ → List (String × α)

/-- Collections as objects, with an entry for each member.  Entries are put in one after the
other, whatever their keys are. -/
def Codec.keyed {σ α : Type} (collection : Keyed σ α) (entry : Codec α) : Codec σ where
  read := fun text =>
    match ahead text with
    | .done => .error (.atEnd .eofValue)
    | .next c rest h =>
      if c = '\x7b' then
        let member (before : σ) (key : String) : Reader σ :=
          afterColon (entry.read.map (collection.insert before key))
        members member collection.empty rest h
      else .error (mismatch "a map" c rest)
  write := fun s => .object ((collection.entries s).map fun (key, a) => (key, entry.write a))

mutual

/-- How the values of a type stand in a JSON text. -/
inductive Format : Type → Type 1 where
  | text : Format String
  | boolean : Format Bool
  | integer {α : Type} (wanted : String) (narrow? : Int → Option α) (widen : α → Int) : Format α
  | choice {α : Type} (names : List (String × α)) (name : α → String) : Format α
  | list {α : Type} (entry : Format α) : Format (List α)
  | optional {α : Type} (inner : Format α) : Format (Option α)
  | keyed {σ α : Type} (collection : Keyed σ α) (entry : Format α) : Format σ
  | record {R : Type} {types : List Type} (name : String) (fields : Fields types)
      (make : Row types → R) (parts : R → Row types) (make_parts : ∀ r, make (parts r) = r)
      (parts_make : ∀ row, parts (make row) = row) : Format R

/-- The fields of a record, in order: for each its key, its format, the value it takes when it is
missing, and whether a value is left out in writing. -/
inductive Fields : List Type → Type 1 where
  | nil : Fields []
  | cons {α : Type} {αs : List Type} (key : String) (format : Format α) (fallback : Option α)
      (hidden : α → Bool) (rest : Fields αs) : Fields (α :: αs)

end

namespace Fields

variable {α : Type} {αs : List Type}

/-- A field that must be present. -/
def required (key : String) (format : Format α) (rest : Fields αs) : Fields (α :: αs) :=
  .cons key format none (fun _ => false) rest

/-- A field that takes a default value when it is missing, and is always written. -/
def defaulted (key : String) (format : Format α) (default : α) (rest : Fields αs) :
    Fields (α :: αs) :=
  .cons key format (some default) (fun _ => false) rest

/-- A field with a list that is empty when it is missing. -/
def listed (key : String) (entry : Format α) (rest : Fields αs) : Fields (List α :: αs) :=
  .defaulted key (.list entry) [] rest

/-- A field whose value may be missing, as `null` or with its key. -/
def optional (key : String) (format : Format α) (rest : Fields αs) : Fields (Option α :: αs) :=
  .cons key (.optional format) (some none) Option.isNone rest

/-- The keys of the fields. -/
def keys : {αs : List Type} → Fields αs → List String
  | _, .nil => []
  | _, .cons key _ _ _ rest => key :: rest.keys

end Fields

/-- A codec for each field. -/
def CodecRow : List Type → Type
  | [] => Unit
  | α :: αs => Codec α × CodecRow αs

/-- The members that are read and written for the fields of a record, given their codecs. -/
def Fields.membersWith : {αs : List Type} → Fields αs → CodecRow αs → Members αs
  | _, .nil, _ => .nil
  | _, .cons key _ fallback hidden rest, (codec, codecs) =>
    .cons ⟨key, codec, fallback, hidden⟩ (rest.membersWith codecs)

mutual

/-- The codec for a format. -/
def Format.codec : {α : Type} → Format α → Codec α
  | _, .text => .text
  | _, .boolean => .boolean
  | _, .integer wanted narrow? widen => .integer wanted narrow? widen
  | _, .choice names name => .choice names name
  | _, .list entry => .list entry.codec
  | _, .optional inner => .optional inner.codec
  | _, .keyed collection entry => .keyed collection entry.codec
  | _, .record name fields make parts make_parts parts_make =>
    Record.codec ⟨name, _, fields.membersWith fields.codecs, make, parts, make_parts, parts_make⟩

/-- The codecs for the fields of a record. -/
def Fields.codecs : {αs : List Type} → Fields αs → CodecRow αs
  | _, .nil => ()
  | _, .cons _ format _ _ rest => (format.codec, rest.codecs)

end

/-- The members that are read and written for the fields of a record. -/
def Fields.members {αs : List Type} (fields : Fields αs) : Members αs :=
  fields.membersWith fields.codecs

/-- A record type: its name in complaints, its fields, and how a record is made of their values
and taken apart again. -/
structure RecordFormat (R : Type) where
  name : String
  types : List Type
  fields : Fields types
  make : Row types → R
  parts : R → Row types
  make_parts : ∀ r, make (parts r) = r := by intro _; rfl
  parts_make : ∀ row, parts (make row) = row := by intro _; rfl

namespace RecordFormat

/-- The format of a record type. -/
def format {R : Type} (r : RecordFormat R) : Format R :=
  .record r.name r.fields r.make r.parts r.make_parts r.parts_make

/-- The codec of a record type. -/
def codec {R : Type} (r : RecordFormat R) : Codec R :=
  r.format.codec

end RecordFormat

namespace Format

/-- Signed integers of 64 bits. -/
def int64 : Format Int64 :=
  .integer "i64"
    (fun n => if Int64.minValue.toInt ≤ n ∧ n ≤ Int64.maxValue.toInt then some (Int64.ofInt n)
      else none) Int64.toInt

/-- Natural numbers of 32 bits. -/
def uint32 : Format UInt32 :=
  .integer "u32"
    (fun n => if 0 ≤ n ∧ n < UInt32.size then some (UInt32.ofNat n.toNat) else none) (·.toNat)

/-- Natural numbers of 64 bits. -/
def uint64 : Format UInt64 :=
  .integer "usize"
    (fun n => if 0 ≤ n ∧ n < UInt64.size then some (UInt64.ofNat n.toNat) else none) (·.toNat)

end Format

end ManifestAtlas.Json
