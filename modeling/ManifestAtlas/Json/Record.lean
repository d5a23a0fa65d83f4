import ManifestAtlas.Json.Codec
import ManifestAtlas.Json.Skip

/-!
# Records

A record is written as an object with one member for each of its fields.  The
members of a record type are listed once, in a `Members`; reading and writing
both follow that list, so that they cannot disagree about a key or a default.

Reading takes the members of an object in any order.  A key that the record
does not know is skipped with its value, a known key must not come twice, and
a member that is missing takes its fallback, if it has one.  A record may also
stand as an array of its fields in order, of which the last ones may be missing
when they all have a fallback.
-/

namespace ManifestAtlas.Json

/-- A member of a record: its key, how its value is read and written, the value it takes when it
is missing, and whether a value is left out in writing. -/
structure Member (α : Type) where
  key : String
  codec : Codec α
  fallback : Option α
  hidden : α → Bool

/-- The members of a record, in order. -/
inductive Members : List Type → Type 1 where
  | nil : Members []
  | cons {α : Type} {αs : List Type} (member : Member α) (rest : Members αs) : Members (α :: αs)

/-- One value for each member. -/
def Row : List Type → Type
  | [] => Unit
  | α :: αs => α × Row αs

/-- The values read so far. -/
def Slots : List Type → Type
  | [] => Unit
  | α :: αs => Option α × Slots αs

/-- No value yet. -/
def Slots.empty : (αs : List Type) → Slots αs
  | [] => ()
  | _ :: αs => (none, empty αs)

/-- What a key means to a record: nothing, a member that has its value already, or a member
whose value is read next. -/
inductive Target (σ : Type) where
  | unknown
  | taken
  | free (reader : Reader σ)

/-- A target in a part of a larger state. -/
def Target.map {σ τ : Type} (f : σ → τ) : Target σ → Target τ
  | .unknown => .unknown
  | .taken => .taken
  | .free reader => .free (reader.map f)

/-- A required member without a value: its index and its key. -/
structure Missing where
  index : Nat
  key : String

namespace Members

/-- The number of members. -/
def size : {αs : List Type} → Members αs → Nat
  | _, .nil => 0
  | _, .cons _ rest => rest.size + 1

/-- What a key means, given the values read so far. -/
def target : {αs : List Type} → Members αs → Slots αs → String → Target (Slots αs)
  | _, .nil, _, _ => .unknown
  | _, .cons member rest, (slot, slots), key =>
    if member.key = key then
      match slot with
      | some _ => .taken
      | none => .free (member.codec.read.map fun value => (some value, slots))
    else (rest.target slots key).map fun slots => (slot, slots)

/-- The value of every member, with fallbacks in place of missing ones; `index` counts the
members in front of these. -/
def complete : {αs : List Type} → Members αs → (index : Nat) → Slots αs → Except Missing (Row αs)
  | _, .nil, _, _ => .ok ()
  | _, .cons member rest, index, (slot, slots) =>
    match slot.or member.fallback with
    | none => .error ⟨index, member.key⟩
    | some value => (rest.complete (index + 1) slots).map fun row => (value, row)

/-- The members of an object, without those that are left out. -/
def written : {αs : List Type} → Members αs → Row αs → List (String × Value)
  | _, .nil, _ => []
  | _, .cons member rest, (value, row) =>
    if member.hidden value then rest.written row
    else (member.key, member.codec.write value) :: rest.written row

end Members

/-- A failure at the end of an object that is left early: past its closing bracket, if that
comes next. -/
def Failure.pastObject (cause : Cause) (text : List Char) : Failure :=
  match ahead text with
  | .done => .atEnd cause
  | .next c rest _ => if c = '\x7d' then .before cause rest else .before cause (c :: rest)

/-- Reads what follows a key of a record. -/
def readMember {αs : List Type} (all : Members αs) (slots : Slots αs) (key : String) :
    Reader (Slots αs) := fun text =>
  match all.target slots key with
  | .unknown => (afterColon skip text).map (Read.map fun _ => slots)
  | .taken => .error (.pastObject (.duplicateField key) text)
  | .free reader => afterColon reader text

/-- Reads the closing bracket of an array that has all its entries. -/
def closeArray {bound : Nat} (text : List Char) (h : text.length ≤ bound) :
    Except Failure (Read bound Unit) :=
  match ahead text with
  | .done => .error (.atEnd .eofList)
  | .next c rest hc =>
    if c = ']' then .ok ⟨(), rest, length_lt_of_rest hc h⟩
    else if c = ',' then
      match ahead rest with
      | .done => .error (.atEnd .trailingCharacters)
      | .next d more _ =>
        if d = ']' then .error (.on .trailingComma d more)
        else .error (.on .trailingCharacters d more)
    else .error (.on .trailingCharacters c rest)

/-- Reads the fields of a record from an array; `index` counts the fields in front of these. -/
def readRow {bound : Nat} (record : String) (size : Nat) :
    {αs : List Type} → Members αs → (index : Nat) → (text : List Char) → text.length ≤ bound →
      Except Failure (Read bound (Row αs))
  | _, .nil, _, text, h => closeArray text h
  | _, Members.cons member rest, index, text, h =>
    match nextEntry (index == 0) text with
    | .error e => .error e
    | .ok (.close after hr) =>
      match (Members.cons member rest).complete index (Slots.empty _) with
      | .ok row => .ok ⟨row, after, length_lt_of_rest hr h⟩
      | .error missing => .error (.before (.invalidLength missing.index record size) after)
    | .ok (.entry next hn) =>
      match member.codec.read next with
      | .error e => .error e
      | .ok r =>
        have hr : r.rest.length ≤ bound :=
          Nat.le_trans (Nat.le_of_lt r.shorter) (Nat.le_trans hn h)
        (readRow record size rest (index + 1) r.rest hr).map
          (Read.map fun row => (r.value, row))

/-- A record type: its name in complaints, its members, and how a record is made of their values
and taken apart again. -/
structure Record (R : Type) where
  name : String
  types : List Type
  members : Members types
  make : Row types → R
  parts : R → Row types
  make_parts : ∀ r, make (parts r) = r := by intro _; rfl
  parts_make : ∀ row, parts (make row) = row := by intro _; rfl

/-- Reads a record from an object, after its opening bracket. -/
def Record.readObject {R : Type} (record : Record R) {bound : Nat} (text : List Char)
    (h : text.length < bound) : Except Failure (Read bound R) := do
  let r ← Json.members (readMember record.members) (Slots.empty record.types) text h
  match record.members.complete 0 r.value with
  | .ok row => .ok ⟨record.make row, r.rest, r.shorter⟩
  | .error missing => .error (.before (.missingField missing.key) r.rest)

/-- The codec of a record type. -/
def Record.codec {R : Type} (record : Record R) : Codec R where
  read := fun text =>
    match ahead text with
    | .done => .error (.atEnd .eofValue)
    | .next c rest h =>
      if c = '\x7b' then record.readObject rest h
      else if c = '[' then
        (readRow record.name record.members.size record.members 0 rest (rest_length_le h)).map
          (Read.map record.make)
      else .error (mismatch s!"struct {record.name}" c rest)
  write := fun r => .object (record.members.written (record.parts r))

end ManifestAtlas.Json
