import ManifestAtlas.Json.Double
import ManifestAtlas.Json.Reader

/-!
# Numbers of a JSON text

A numeral is read in two steps.  `numeral` checks its form and keeps its
digits; `Numeral.number?` gives its value.  The value is an integer when the
numeral has neither fraction nor exponent and fits into 64 bits, and a double
otherwise.

The digits of a double are collected in a significand of 64 bits.  A digit that
no longer fits is dropped, and so are the digits after it in the same part of
the numeral; dropped integer digits still count in the exponent.
-/

namespace ManifestAtlas.Json

/-- A number: an integer of at most 64 bits, or a double with its sign. -/
inductive Number where
  | integer (value : Int)
  | float (negative : Bool) (magnitude : Double)
  deriving DecidableEq, Repr

/-- The text of a number. -/
def Number.print : Number → String
  | .integer value => toString value
  | .float true magnitude => "-" ++ magnitude.print
  | .float false magnitude => magnitude.print

/-- What a number is called where another kind of value is wanted. -/
def Number.found : Number → Found
  | .integer value => .integer value
  | .float negative magnitude => .float (Number.print (.float negative magnitude))

/-- The exponent of a numeral. -/
structure Exponent where
  negative : Bool
  digits : List Nat
  deriving DecidableEq, Repr

/-- A numeral, by its digits. -/
structure Numeral where
  negative : Bool
  whole : List Nat
  fraction : Option (List Nat)
  exponent : Option Exponent
  deriving DecidableEq, Repr

/-- The value of a decimal digit. -/
def digit? (c : Char) : Option Nat :=
  if '0' ≤ c ∧ c ≤ '9' then some (c.toNat - '0'.toNat) else none

/-- Reads the decimal digits at the front of a text, if there are any. -/
def digits {bound : Nat} :
    (text : List Char) → text.length < bound → Read bound (List Nat)
  | [], h => ⟨[], [], h⟩
  | c :: rest, h =>
    match digit? c with
    | some d => (digits rest (length_lt_of_cons h)).map (d :: ·)
    | none => ⟨[], c :: rest, h⟩

/-- Reads at least one decimal digit; `early` is what is wrong with a text that ends here. -/
def someDigits {bound : Nat} (early : Cause) (text : List Char) (h : text.length < bound) :
    Except Failure (Read bound (List Nat)) :=
  match text, h with
  | [], _ => .error (.atEnd early)
  | c :: rest, h =>
    match digit? c with
    | some d => .ok ((digits rest (length_lt_of_cons h)).map (d :: ·))
    | none => .error (.on .invalidNumber c rest)

/-- Reads the digits before the point, the first one being `c`: a zero on its own, or digits
without a zero in front. -/
def wholeDigits {bound : Nat} (c : Char) (rest : List Char) (h : rest.length < bound) :
    Except Failure (Read bound (List Nat)) :=
  match digit? c with
  | none => .error (.on .invalidNumber c rest)
  | some 0 =>
    match rest, h with
    | next :: more, h =>
      if (digit? next).isSome then .error (.on .invalidNumber next more)
      else .ok ⟨[0], next :: more, h⟩
    | [], h => .ok ⟨[0], [], h⟩
  | some d => .ok ((digits rest h).map (d :: ·))

/-- Reads a point and the digits after it, if there is a point. -/
def fractionDigits {bound : Nat} (early : Cause) (text : List Char) (h : text.length < bound) :
    Except Failure (Read bound (Option (List Nat))) :=
  match text, h with
  | '.' :: rest, h => (someDigits early rest (length_lt_of_cons h)).map (Read.map some)
  | text, h => .ok ⟨none, text, h⟩

/-- Reads the sign and the digits of an exponent. -/
def exponentDigits {bound : Nat} (early : Cause) (text : List Char) (h : text.length < bound) :
    Except Failure (Read bound Exponent) :=
  match text, h with
  | '+' :: rest, h => (someDigits early rest (length_lt_of_cons h)).map (Read.map (⟨false, ·⟩))
  | '-' :: rest, h => (someDigits early rest (length_lt_of_cons h)).map (Read.map (⟨true, ·⟩))
  | text, h => (someDigits early text h).map (Read.map (⟨false, ·⟩))

/-- Reads an exponent, if there is one. -/
def exponentPart {bound : Nat} (early : Cause) (text : List Char) (h : text.length < bound) :
    Except Failure (Read bound (Option Exponent)) :=
  match text, h with
  | 'e' :: rest, h => (exponentDigits early rest (length_lt_of_cons h)).map (Read.map some)
  | 'E' :: rest, h => (exponentDigits early rest (length_lt_of_cons h)).map (Read.map some)
  | text, h => .ok ⟨none, text, h⟩

/-- Reads a numeral after its sign, the first digit being `c`. -/
def unsignedNumeral {bound : Nat} (early : Cause) (negative : Bool) (c : Char) (rest : List Char)
    (h : rest.length < bound) : Except Failure (Read bound Numeral) := do
  let whole ← wholeDigits c rest h
  let fraction ← fractionDigits early whole.rest whole.shorter
  let exponent ← exponentPart early fraction.rest fraction.shorter
  .ok ⟨⟨negative, whole.value, fraction.value, exponent.value⟩, exponent.rest, exponent.shorter⟩

/-- Whether a numeral can start with the character. -/
def opensNumeral (c : Char) : Bool :=
  c == '-' || (digit? c).isSome

/-- Reads a numeral that starts with `c`; `early` is what is wrong with a text that ends inside
of it. -/
def numeral {bound : Nat} (early : Cause) (c : Char) (rest : List Char)
    (h : rest.length < bound) : Except Failure (Read bound Numeral) :=
  if c = '-' then
    match rest, h with
    | [], _ => .error (.atEnd early)
    | first :: more, h => unsignedNumeral early true first more (length_lt_of_cons h)
  else unsignedNumeral early false c rest h

/-- Appends digits to a significand while it fits into 64 bits; returns the digits that did not
fit as well. -/
def appendDigits : (significand : Nat) → List Nat → Nat × List Nat
  | s, [] => (s, [])
  | s, d :: ds =>
    if s * 10 + d < UInt64.size then appendDigits (s * 10 + d) ds else (s, d :: ds)

/-- The value of an exponent, if it fits into 31 bits; otherwise the number of digits after the
one that made it too large. -/
def exponentValue : (value : Nat) → List Nat → Except Nat Nat
  | e, [] => .ok e
  | e, d :: ds =>
    if e * 10 + d < 0x80000000 then exponentValue (e * 10 + d) ds else .error ds.length

/-- The significand of a numeral, and the exponent that its own digits give. -/
def Numeral.significand (n : Numeral) : Nat × Int :=
  let (s, dropped) := appendDigits 0 n.whole
  match n.fraction with
  | none => (s, dropped.length)
  | some fraction =>
    let (s, unused) := appendDigits s fraction
    (s, (dropped.length : Int) - ((fraction.length - unused.length : Nat) : Int))

/-- Whether the numeral is an integer whose digits all fit. -/
def Numeral.isInteger (n : Numeral) : Bool :=
  n.fraction.isNone && n.exponent.isNone && (appendDigits 0 n.whole).2.isEmpty

/-- The value of an integer numeral: a double when it is a negative zero or does not fit
into 64 bits with its sign. -/
def integerNumber? (negative : Bool) (magnitude : Nat) : Option Number :=
  if negative then
    if 1 ≤ magnitude ∧ magnitude ≤ 0x8000000000000000 then some (.integer (-magnitude))
    else (Double.ofNat? magnitude).map (.float true)
  else some (.integer magnitude)

/-- A number that was looked at as a whole, if it is in range. -/
def inRange {α : Type} (number : α → Number) : Option α → Except Nat Number
  | some a => .ok (number a)
  | none => .error 0

/-- The double that a numeral stands for; when it is out of range, the number of its characters
that were not looked at. -/
def Numeral.double? (n : Numeral) : Except Nat Number :=
  let s := n.significand.1
  let own := n.significand.2
  match n.exponent with
  | none => inRange (.float n.negative) (Double.ofDecimal? s own)
  | some e =>
    match exponentValue 0 e.digits with
    | .ok value =>
      inRange (.float n.negative)
        (Double.ofDecimal? s (if e.negative then own - value else own + value))
    | .error unseen => if s ≠ 0 ∧ !e.negative then .error unseen else .ok (.float n.negative ⟨0, 0⟩)

/-- The value of a numeral; when it is out of range, the number of its characters that were
not looked at. -/
def Numeral.number? (n : Numeral) : Except Nat Number :=
  if n.isInteger then inRange id (integerNumber? n.negative n.significand.1) else n.double?

/-- Reads a number that starts with `c`. -/
def number {bound : Nat} (c : Char) (rest : List Char) (h : rest.length < bound) :
    Except Failure (Read bound Number) := do
  let n ← numeral .eofValue c rest h
  match n.value.number? with
  | .ok value => .ok ⟨value, n.rest, n.shorter⟩
  | .error unseen => .error ⟨.numberOutOfRange, byteLength n.rest + unseen⟩

end ManifestAtlas.Json
