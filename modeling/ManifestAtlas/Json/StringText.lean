import ManifestAtlas.Json.Reader

/-!
# Strings of a JSON text

A string runs from one double quote to the next.  Between them a backslash
opens an escape: one of eight single characters, or `u` and four hexadecimal
digits that give a UTF-16 code unit.  A unit of the upper surrogates must be
followed by an escape that gives a lower one, and the pair is one character.
Control characters may not stand in a string.

A string whose value nobody asks for is skimmed: its escapes need the right
shape only, so that code units are not paired.

Writing a string uses the short escapes where there are any.
-/

namespace ManifestAtlas.Json

/-- The value of a hexadecimal digit. -/
def hexDigit? (c : Char) : Option Nat :=
  if '0' ≤ c ∧ c ≤ '9' then some (c.toNat - '0'.toNat)
  else if 'a' ≤ c ∧ c ≤ 'f' then some (c.toNat - 'a'.toNat + 10)
  else if 'A' ≤ c ∧ c ≤ 'F' then some (c.toNat - 'A'.toNat + 10)
  else none

/-- The code unit that four hexadecimal digits give. -/
def codeUnit? (a b c d : Char) : Option Nat := do
  let a ← hexDigit? a
  let b ← hexDigit? b
  let c ← hexDigit? c
  let d ← hexDigit? d
  some (((a * 16 + b) * 16 + c) * 16 + d)

/-- Reads four hexadecimal digits.  A text of fewer than four bytes ends too early; otherwise
four bytes count as read, whatever they are. -/
def codeUnit : Reader Nat := fun text =>
  if byteLength text < 4 then .error (.atEnd .eofString)
  else
    match text with
    | a :: b :: c :: d :: rest =>
      match codeUnit? a b c d with
      | some unit => .ok ⟨unit, rest, by simp only [List.length_cons]; omega⟩
      | none => .error ⟨.invalidEscape, byteLength text - 4⟩
    | _ => .error ⟨.invalidEscape, byteLength text - 4⟩

/-- The code units that open a pair. -/
def isUpperSurrogate (unit : Nat) : Bool :=
  0xD800 ≤ unit && unit ≤ 0xDBFF

/-- The code units that close a pair. -/
def isLowerSurrogate (unit : Nat) : Bool :=
  0xDC00 ≤ unit && unit ≤ 0xDFFF

/-- The character that two paired code units stand for. -/
def pairChar (upper lower : Nat) : Char :=
  Char.ofNat (0x10000 + (upper - 0xD800) * 0x400 + (lower - 0xDC00))

/-- Reads the character `c` right at the front, inside a pair of code units. -/
def pairMark {bound : Nat} (mark : Char) :
    (text : List Char) → text.length ≤ bound → Except Failure (Read bound Unit)
  | [], _ => .error (.atEnd .eofString)
  | c :: rest, h => if c = mark then .ok ⟨(), rest, h⟩ else .error (.on .hexEscapeEnd c rest)

/-- Reads the code units of one character, after `u`. -/
def unicodeEscape : Reader Char := fun text => do
  let first ← codeUnit text
  if isLowerSurrogate first.value then .error (.before .loneSurrogate first.rest)
  else if isUpperSurrogate first.value then do
    let slash ← pairMark '\\' first.rest (Nat.le_of_lt first.shorter)
    let u ← pairMark 'u' slash.rest (Nat.le_of_lt slash.shorter)
    let second ← codeUnit u.rest
    if isLowerSurrogate second.value then
      .ok ⟨pairChar first.value second.value, second.rest,
        Nat.lt_trans second.shorter u.shorter⟩
    else .error (.before .loneSurrogate second.rest)
  else .ok ⟨Char.ofNat first.value, first.rest, first.shorter⟩

/-- The character that a single-character escape stands for. -/
def shortEscape? : Char → Option Char
  | '"' => some '"'
  | '\\' => some '\\'
  | '/' => some '/'
  | 'b' => some '\x08'
  | 'f' => some '\x0c'
  | 'n' => some '\n'
  | 'r' => some '\r'
  | 't' => some '\t'
  | _ => none

/-- Reads what follows a backslash, with the given reader for what follows `u`. -/
def escaped {α : Type} (short : Char → α) (unicode : Reader α) : Reader α
  | [] => .error (.atEnd .eofString)
  | c :: rest =>
    match shortEscape? c with
    | some short? => .ok ⟨short short?, rest, Nat.lt_succ_self _⟩
    | none =>
      if c = 'u' then
        (unicode rest).map fun r => r.within (Nat.le_succ _)
      else .error (.on .invalidEscape c rest)

/-- The characters that may not stand in a string. -/
def isForbidden (c : Char) : Bool :=
  c.toNat < 0x20

/-- Reads the rest of a string, after its opening quote; `before` holds the characters read
so far, the last one first. -/
def stringRest {bound : Nat} (before : List Char) (text : List Char) (h : text.length < bound) :
    Except Failure (Read bound String) :=
  match text, h with
  | [], _ => .error (.atEnd .eofString)
  | c :: rest, h =>
    have hrest : rest.length < bound := Nat.lt_of_succ_lt h
    if c = '"' then .ok ⟨String.ofList before.reverse, rest, hrest⟩
    else if c = '\\' then
      match escaped id unicodeEscape rest with
      | .ok r => stringRest (r.value :: before) r.rest (Nat.lt_trans r.shorter hrest)
      | .error e => .error e
    else if isForbidden c then .error (.before .controlCharacter rest)
    else stringRest (c :: before) rest hrest
termination_by text.length
decreasing_by
  · simp only [List.length_cons]; exact Nat.lt_succ_of_lt r.shorter
  · simp only [List.length_cons]; exact Nat.lt_succ_self _

/-- Skims over the rest of a string, after its opening quote. -/
def skimString {bound : Nat} (text : List Char) (h : text.length < bound) :
    Except Failure (Read bound Unit) :=
  match text, h with
  | [], _ => .error (.atEnd .eofString)
  | c :: rest, h =>
    have hrest : rest.length < bound := Nat.lt_of_succ_lt h
    if c = '"' then .ok ⟨(), rest, hrest⟩
    else if c = '\\' then
      match escaped (fun _ => ()) (codeUnit.map fun _ => ()) rest with
      | .ok r => skimString r.rest (Nat.lt_trans r.shorter hrest)
      | .error e => .error e
    else if isForbidden c then .error (.before .controlCharacter (c :: rest))
    else skimString rest hrest
termination_by text.length
decreasing_by
  · simp only [List.length_cons]; exact Nat.lt_succ_of_lt r.shorter
  · simp only [List.length_cons]; exact Nat.lt_succ_self _

/-- The lower-case hexadecimal digit of a number below sixteen. -/
def hexDigit (n : Nat) : Char :=
  if n < 10 then Char.ofNat ('0'.toNat + n) else Char.ofNat ('a'.toNat + (n - 10))

/-- A character as it is written inside a string. -/
def escapeChar (c : Char) : List Char :=
  if c = '"' then ['\\', '"']
  else if c = '\\' then ['\\', '\\']
  else if c = '\x08' then ['\\', 'b']
  else if c = '\x0c' then ['\\', 'f']
  else if c = '\n' then ['\\', 'n']
  else if c = '\r' then ['\\', 'r']
  else if c = '\t' then ['\\', 't']
  else if isForbidden c then
    ['\\', 'u', '0', '0', hexDigit (c.toNat / 16), hexDigit (c.toNat % 16)]
  else [c]

/-- A string between quotes, with its characters escaped. -/
def printString (s : String) : List Char :=
  '"' :: (s.toList.flatMap escapeChar ++ ['"'])

end ManifestAtlas.Json
