import ManifestAtlas.Json.Number
import ManifestAtlas.Json.StringText

/-!
# The grammar of JSON

A `Tree` is a JSON text without its space: it keeps the escapes of strings, the
digits of numbers and the order of members, and says nothing about what they
mean.  `Tree.IsTextOf` relates a tree to all its texts; it is the grammar that a
text has to follow to be well formed.

What a string means is found by `unescape?`.  A string may follow the grammar
and still mean nothing, when a surrogate in it has no partner.  In the same way
`Numeral.integer?` gives the integer that a number means, if it means one.
-/

namespace ManifestAtlas.Json

/-! ## Syntax trees -/

/-- A piece of a string: a character that stands for itself, a backslash with one character, or
`\u` with four hexadecimal digits. -/
inductive Piece where
  | plain (c : Char)
  | short (c : Char)
  | unit (a b c d : Char)
  deriving DecidableEq

/-- A JSON text without its space. -/
inductive Tree where
  | null
  | boolean (value : Bool)
  | number (numeral : Numeral)
  | string (pieces : List Piece)
  | array (entries : List Tree)
  | object (members : List (List Piece × Tree))

/-! ## The texts of strings and numbers -/

/-- The characters of a piece. -/
def Piece.text : Piece → List Char
  | .plain c => [c]
  | .short c => ['\\', c]
  | .unit a b c d => ['\\', 'u', a, b, c, d]

/-- Whether a piece follows the grammar. -/
def Piece.IsValid : Piece → Prop
  | .plain c => c ≠ '"' ∧ c ≠ '\\' ∧ isForbidden c = false
  | .short c => (shortEscape? c).isSome = true
  | .unit a b c d => (codeUnit? a b c d).isSome = true

/-- The text of a string, between its quotes. -/
def IsStringText (pieces : List Piece) (text : List Char) : Prop :=
  (∀ p ∈ pieces, p.IsValid) ∧ text = '"' :: (pieces.flatMap Piece.text ++ ['"'])

/-- Decimal digits as characters. -/
def digitText (ds : List Nat) : List Char :=
  ds.map Nat.digitChar

/-- At least one decimal digit. -/
def IsDigits (ds : List Nat) : Prop :=
  ds ≠ [] ∧ ∀ d ∈ ds, d < 10

/-- The digits in front of the point: a zero, or digits without a zero in front. -/
def IsWhole (ds : List Nat) : Prop :=
  IsDigits ds ∧ (ds = [0] ∨ ds.head? ≠ some 0)

/-- The point and the digits after it. -/
def IsFractionText : Option (List Nat) → List Char → Prop
  | none, text => text = []
  | some ds, text => IsDigits ds ∧ text = '.' :: digitText ds

/-- The exponent, with or without a plus sign. -/
def IsExponentText : Option Exponent → List Char → Prop
  | none, text => text = []
  | some e, text => IsDigits e.digits ∧ ∃ mark sign, (mark = 'e' ∨ mark = 'E') ∧
    (if e.negative then sign = ['-'] else sign = [] ∨ sign = ['+']) ∧
    text = mark :: (sign ++ digitText e.digits)

/-- The sign of a number. -/
def signText (negative : Bool) : List Char :=
  if negative then ['-'] else []

/-- The text of a number. -/
def IsNumberText (n : Numeral) (text : List Char) : Prop :=
  IsWhole n.whole ∧ ∃ fraction exponent, IsFractionText n.fraction fraction ∧
    IsExponentText n.exponent exponent ∧
    text = signText n.negative ++ (digitText n.whole ++ (fraction ++ exponent))

/-! ## The texts of trees -/

/-- Space between two tokens. -/
def IsSpace (text : List Char) : Prop :=
  ∀ c ∈ text, isSpace c = true

/-- What stands in front of an entry: space, and a comma unless the entry is the first one. -/
def IsGap (first : Bool) (text : List Char) : Prop :=
  if first then IsSpace text
  else ∃ before after, IsSpace before ∧ IsSpace after ∧ text = before ++ ',' :: after

/-- What stands between a key and its value. -/
def IsColon (text : List Char) : Prop :=
  ∃ before after, IsSpace before ∧ IsSpace after ∧ text = before ++ ':' :: after

mutual

/-- The texts of a tree, without space around them. -/
def Tree.Spelled : Tree → List Char → Prop
  | .null, text => text = 'n' :: "ull".toList
  | .boolean true, text => text = 't' :: "rue".toList
  | .boolean false, text => text = 'f' :: "alse".toList
  | .number n, text => IsNumberText n text
  | .string pieces, text => IsStringText pieces text
  | .array ts, text => ∃ body, EntriesSpelled true ts body ∧ text = '[' :: body
  | .object ms, text => ∃ body, MembersSpelled true ms body ∧ text = '\x7b' :: body

/-- The texts of entries up to the closing bracket. -/
def EntriesSpelled (first : Bool) : List Tree → List Char → Prop
  | [], text => ∃ space, IsSpace space ∧ text = space ++ [']']
  | t :: ts, text => ∃ gap body more, IsGap first gap ∧ t.Spelled body ∧
    EntriesSpelled false ts more ∧ text = gap ++ (body ++ more)

/-- The texts of members up to the closing bracket. -/
def MembersSpelled (first : Bool) : List (List Piece × Tree) → List Char → Prop
  | [], text => ∃ space, IsSpace space ∧ text = space ++ ['\x7d']
  | (key, t) :: ms, text => ∃ gap name colon body more, IsGap first gap ∧
    IsStringText key name ∧ IsColon colon ∧ t.Spelled body ∧ MembersSpelled false ms more ∧
    text = gap ++ (name ++ (colon ++ (body ++ more)))

end

/-- A well-formed JSON text, by its tree. -/
def Tree.IsTextOf (t : Tree) (text : List Char) : Prop :=
  ∃ before body after, IsSpace before ∧ t.Spelled body ∧ IsSpace after ∧
    text = before ++ (body ++ after)

/-! ## What strings and numbers mean -/

/-- The code unit that a piece gives. -/
def Piece.codeUnit? : Piece → Option Nat
  | .unit a b c d => Json.codeUnit? a b c d
  | _ => none

/-- The characters that a string means.  An upper surrogate must be followed by a lower one, and
a lower one may not stand elsewhere. -/
def unescape? : List Piece → Option (List Char)
  | [] => some []
  | .plain c :: ps => (unescape? ps).map (c :: ·)
  | .short c :: ps => do
    let x ← shortEscape? c
    (unescape? ps).map (x :: ·)
  | .unit a b c d :: ps => do
    let unit ← codeUnit? a b c d
    if isLowerSurrogate unit then none
    else if isUpperSurrogate unit then
      match ps with
      | [] => none
      | p :: ps => do
        let lower ← p.codeUnit?
        if isLowerSurrogate lower then (unescape? ps).map (pairChar unit lower :: ·) else none
    else (unescape? ps).map (Char.ofNat unit :: ·)

/-- The text that a string means. -/
def text? (pieces : List Piece) : Option String :=
  (unescape? pieces).map String.ofList

/-- The number that digits mean behind those of a number. -/
def appendValue : Nat → List Nat → Nat
  | value, [] => value
  | value, d :: ds => appendValue (value * 10 + d) ds

/-- The number that digits mean. -/
def digitsValue (ds : List Nat) : Nat :=
  appendValue 0 ds

/-- The integer of at most 64 bits that a number means.  A number with a fraction or an exponent
means none, and neither does `-0`. -/
def Numeral.integer? (n : Numeral) : Option Int :=
  match n.fraction, n.exponent with
  | none, none =>
    if n.negative then
      if 1 ≤ digitsValue n.whole ∧ digitsValue n.whole ≤ 0x8000000000000000 then
        some (-digitsValue n.whole)
      else none
    else if digitsValue n.whole < UInt64.size then some (digitsValue n.whole) else none
  | _, _ => none

/-! ## Texts without space -/

instance : DecidablePred Piece.IsValid
  | .plain c => inferInstanceAs (Decidable (c ≠ '"' ∧ c ≠ '\\' ∧ isForbidden c = false))
  | .short c => inferInstanceAs (Decidable ((shortEscape? c).isSome = true))
  | .unit a b c d => inferInstanceAs (Decidable ((codeUnit? a b c d).isSome = true))

instance (ds : List Nat) : Decidable (IsDigits ds) :=
  inferInstanceAs (Decidable (ds ≠ [] ∧ ∀ d ∈ ds, d < 10))

instance (ds : List Nat) : Decidable (IsWhole ds) :=
  inferInstanceAs (Decidable (IsDigits ds ∧ (ds = [0] ∨ ds.head? ≠ some 0)))

/-- Whether the digits of a number follow the grammar. -/
def Numeral.isWellFormed (n : Numeral) : Bool :=
  IsWhole n.whole ∧ (∀ ds ∈ n.fraction, IsDigits ds) ∧ ∀ e ∈ n.exponent, IsDigits e.digits

/-- The text of a number, without plus signs. -/
def Numeral.compact (n : Numeral) : List Char :=
  signText n.negative ++ (digitText n.whole ++
    ((n.fraction.elim [] fun ds => '.' :: digitText ds) ++
      n.exponent.elim [] fun e => 'e' :: (signText e.negative ++ digitText e.digits)))

/-- The text of a string. -/
def stringText (pieces : List Piece) : List Char :=
  '"' :: (pieces.flatMap Piece.text ++ ['"'])

mutual

/-- Whether all strings and numbers of a tree follow the grammar. -/
def Tree.isWellFormed : Tree → Bool
  | .null => true
  | .boolean _ => true
  | .number n => n.isWellFormed
  | .string pieces => ∀ p ∈ pieces, p.IsValid
  | .array ts => entriesWellFormed ts
  | .object ms => membersWellFormed ms

/-- Whether all strings and numbers of some entries follow the grammar. -/
def entriesWellFormed : List Tree → Bool
  | [] => true
  | t :: ts => t.isWellFormed && entriesWellFormed ts

/-- Whether all strings and numbers of some members follow the grammar. -/
def membersWellFormed : List (List Piece × Tree) → Bool
  | [] => true
  | (key, t) :: ms => (∀ p ∈ key, p.IsValid) && (t.isWellFormed && membersWellFormed ms)

end

mutual

/-- The text of a tree without space. -/
def Tree.compact : Tree → List Char
  | .null => 'n' :: "ull".toList
  | .boolean true => 't' :: "rue".toList
  | .boolean false => 'f' :: "alse".toList
  | .number n => n.compact
  | .string pieces => stringText pieces
  | .array ts => '[' :: entriesCompact true ts
  | .object ms => '\x7b' :: membersCompact true ms

/-- The text of entries without space, up to the closing bracket. -/
def entriesCompact (first : Bool) : List Tree → List Char
  | [] => [']']
  | t :: ts => (if first then [] else [',']) ++ (t.compact ++ entriesCompact false ts)

/-- The text of members without space, up to the closing bracket. -/
def membersCompact (first : Bool) : List (List Piece × Tree) → List Char
  | [] => ['\x7d']
  | (key, t) :: ms => (if first then [] else [',']) ++
    (stringText key ++ ([':'] ++ (t.compact ++ membersCompact false ms)))

end

theorem isNumberText_compact {n : Numeral} (h : n.isWellFormed) : IsNumberText n n.compact := by
  obtain ⟨hwhole, hfraction, hexponent⟩ := of_decide_eq_true h
  refine ⟨hwhole, _, _, ?_, ?_, rfl⟩
  · cases hf : n.fraction with
    | none => rfl
    | some ds => exact ⟨hfraction ds hf, rfl⟩
  · cases he : n.exponent with
    | none => rfl
    | some e =>
      refine ⟨hexponent e he, 'e', signText e.negative, .inl rfl, ?_, rfl⟩
      cases e.negative <;> simp [signText]

theorem isSpace_nil : IsSpace [] :=
  fun _ hc => absurd hc List.not_mem_nil

/-- A comma alone separates two entries. -/
theorem isGap_comma (first : Bool) : IsGap first (if first then [] else [',']) := by
  cases first with
  | true => exact isSpace_nil
  | false => exact ⟨[], [], isSpace_nil, isSpace_nil, rfl⟩

theorem isColon_colon : IsColon [':'] :=
  ⟨[], [], isSpace_nil, isSpace_nil, rfl⟩

mutual

/-- Every tree whose strings and numbers follow the grammar has a text. -/
theorem Tree.spelled_compact : {t : Tree} → t.isWellFormed → t.Spelled t.compact
  | .null, _ => by
    rw [Tree.Spelled, Tree.compact]
  | .boolean true, _ => by
    rw [Tree.Spelled, Tree.compact]
  | .boolean false, _ => by
    rw [Tree.Spelled, Tree.compact]
  | .number n, h => by
    rw [Tree.isWellFormed] at h
    rw [Tree.Spelled, Tree.compact]
    exact isNumberText_compact h
  | .string pieces, h => by
    rw [Tree.isWellFormed] at h
    rw [Tree.Spelled, Tree.compact]
    exact ⟨of_decide_eq_true h, rfl⟩
  | .array ts, h => by
    rw [Tree.isWellFormed] at h
    rw [Tree.Spelled, Tree.compact]
    exact ⟨_, entriesSpelled_compact true h, rfl⟩
  | .object ms, h => by
    rw [Tree.isWellFormed] at h
    rw [Tree.Spelled, Tree.compact]
    exact ⟨_, membersSpelled_compact true h, rfl⟩

theorem entriesSpelled_compact (first : Bool) : {ts : List Tree} → entriesWellFormed ts →
    EntriesSpelled first ts (entriesCompact first ts)
  | [], _ => by
    rw [EntriesSpelled, entriesCompact]
    exact ⟨[], isSpace_nil, rfl⟩
  | t :: ts, h => by
    rw [entriesWellFormed, Bool.and_eq_true] at h
    rw [EntriesSpelled, entriesCompact]
    exact ⟨_, _, _, isGap_comma first, Tree.spelled_compact h.1,
      entriesSpelled_compact false h.2, rfl⟩

theorem membersSpelled_compact (first : Bool) : {ms : List (List Piece × Tree)} →
    membersWellFormed ms → MembersSpelled first ms (membersCompact first ms)
  | [], _ => by
    rw [MembersSpelled, membersCompact]
    exact ⟨[], isSpace_nil, rfl⟩
  | (key, t) :: ms, h => by
    rw [membersWellFormed, Bool.and_eq_true, Bool.and_eq_true] at h
    obtain ⟨hkey, ht, hms⟩ := h
    have hname : IsStringText key (stringText key) := ⟨of_decide_eq_true hkey, rfl⟩
    rw [MembersSpelled, membersCompact]
    exact ⟨_, _, _, _, _, isGap_comma first, hname, isColon_colon, Tree.spelled_compact ht,
      membersSpelled_compact false hms, rfl⟩

end

theorem Tree.Spelled.isTextOf {t : Tree} {text : List Char} (h : t.Spelled text) :
    t.IsTextOf text :=
  ⟨[], text, [], isSpace_nil, h, isSpace_nil, by simp⟩

end ManifestAtlas.Json
