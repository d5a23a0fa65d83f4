import ManifestAtlas.Json.StringText

/-!
# Entries of arrays and members of objects

The loops that walk over the entries of an array and over the members of an
object.  They are given a reader for one entry, or for what follows a key, and
take care of brackets and commas.  Both keep what they collect in a state that
is handed from one entry to the next.

Main statement: with the bracket closed at once, a loop returns its state
unchanged (`entries_nil`).
-/

namespace ManifestAtlas.Json

/-- What an array of at most `bound` characters goes on with: its closing bracket, or the text
of the next entry. -/
inductive Turn (bound : Nat) where
  | close (rest : List Char) (shorter : rest.length < bound)
  | entry (text : List Char) (atMost : text.length ≤ bound)

/-- Looks for the next entry of an array, past the comma unless it is the first one. -/
def nextEntry (first : Bool) (text : List Char) : Except Failure (Turn text.length) :=
  match ahead text with
  | .done => .error (.atEnd .eofList)
  | .next c rest h =>
    if c = ']' then .ok (.close rest h)
    else if first then .ok (.entry text (length_le_self text))
    else if c = ',' then
      match ahead rest with
      | .done => .error (.atEnd .eofValue)
      | .next d more _ =>
        if d = ']' then .error (.on .trailingComma d more)
        else .ok (.entry rest (rest_length_le h))
    else .error (.on .expectedListEnd c rest)

/-- Reads the entries of an array up to its closing bracket. -/
def entriesFrom {bound : Nat} {α : Type} (entry : Reader α) (first : Bool) (before : List α)
    (text : List Char) (h : text.length ≤ bound) : Except Failure (Read bound (List α)) :=
  match nextEntry first text with
  | .error e => .error e
  | .ok (.close rest hr) => .ok ⟨before.reverse, rest, length_lt_of_rest hr h⟩
  | .ok (.entry next hn) =>
    match entry next with
    | .error e => .error e
    | .ok r =>
      have hr : r.rest.length < text.length := Nat.lt_of_lt_of_le r.shorter hn
      entriesFrom entry false (r.value :: before) r.rest (Nat.le_trans (Nat.le_of_lt hr) h)
termination_by text.length

/-- Reads the entries of an array, after its opening bracket. -/
def entries {bound : Nat} {α : Type} (entry : Reader α) (text : List Char)
    (h : text.length < bound) : Except Failure (Read bound (List α)) :=
  entriesFrom entry true [] text (length_le_of_lt h)

/-- Reads a key, given the character that it starts with. -/
def keyFrom {bound : Nat} (c : Char) (rest : List Char) (h : rest.length < bound) :
    Except Failure (Read bound (Option String)) :=
  if c = '"' then (stringRest [] rest h).map (Read.map some)
  else .error (.on .keyNotString c rest)

/-- Reads the key of the next member of an object, past the comma unless it is the first one;
no key when the object is closed. -/
def nextKey (first : Bool) : Reader (Option String) := fun text =>
  match ahead text with
  | .done => .error (.atEnd .eofObject)
  | .next c rest h =>
    if c = '\x7d' then .ok ⟨none, rest, h⟩
    else if first then keyFrom c rest h
    else if c = ',' then
      match ahead rest with
      | .done => .error (.atEnd .eofValue)
      | .next d more hd =>
        if d = '\x7d' then .error (.on .trailingComma d more)
        else keyFrom d more (Nat.lt_trans hd h)
    else .error (.on .expectedObjectEnd c rest)

/-- Reads the members of an object up to its closing bracket.  `member` reads what follows a
key and returns the state after it. -/
def membersFrom {bound : Nat} {σ : Type} (member : σ → String → Reader σ) (first : Bool)
    (state : σ) (text : List Char) (h : text.length ≤ bound) : Except Failure (Read bound σ) :=
  match nextKey first text with
  | .error e => .error e
  | .ok ⟨none, rest, hr⟩ => .ok ⟨state, rest, length_lt_of_rest hr h⟩
  | .ok ⟨some key, rest, hk⟩ =>
    match member state key rest with
    | .error e => .error e
    | .ok r =>
      have hr : r.rest.length < text.length := Nat.lt_trans r.shorter hk
      membersFrom member false r.value r.rest (Nat.le_trans (Nat.le_of_lt hr) h)
termination_by text.length

/-- Reads the members of an object, after its opening bracket. -/
def members {bound : Nat} {σ : Type} (member : σ → String → Reader σ) (start : σ)
    (text : List Char) (h : text.length < bound) : Except Failure (Read bound σ) :=
  membersFrom member true start text (length_le_of_lt h)

/-- Reads a colon and then a value. -/
def afterColon {α : Type} (reader : Reader α) : Reader α := fun text => do
  let c ← colon text
  let r ← reader c.rest
  .ok (c.followedBy r)

theorem entries_nil {bound : Nat} {α : Type} (entry : Reader α) (rest : List Char)
    (h : (']' :: rest).length < bound) :
    entries entry (']' :: rest) h = .ok ⟨[], rest, Nat.lt_of_succ_lt h⟩ := by
  unfold entries entriesFrom
  have : nextEntry true (']' :: rest) = .ok (.close rest (Nat.lt_succ_self _)) := by
    simp [nextEntry, ahead, skipSpace, isSpace]
  rw [this]
  simp

end ManifestAtlas.Json
