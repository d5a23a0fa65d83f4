/-!
# Floating-point numbers of a JSON text

A number with a fraction or an exponent is a double: a whole number of at most
53 bits times a power of two.  Doubles are kept here as natural numbers, scaled
by the smallest positive double, so that every operation is exact arithmetic
followed by one rounding to the nearest double, ties to the even mantissa.

`Double.print` gives the shortest decimal digits that still read back as the
same double, and of those the nearest, with a decimal point, or in scientific
form when the number is very large or very small.
-/

namespace ManifestAtlas.Json

/-- A number that is not negative: `mantissa * 2 ^ shift`, in units of the smallest positive
double. -/
structure Double where
  mantissa : Nat
  shift : Nat
  deriving DecidableEq, Repr

namespace Double

/-- One, in units of the smallest positive double. -/
def one : Nat := 1 <<< 1074

/-- The number of bits of a mantissa. -/
def mantissaBits : Nat := 53

/-- The largest shift of a finite double. -/
def maxShift : Nat := 2045

/-- The number in units of the smallest positive double. -/
def units (d : Double) : Nat :=
  d.mantissa <<< d.shift

/-- The quotient rounded to the nearest whole number, ties to even. -/
def roundedQuotient (num den : Nat) : Nat :=
  let q := num / den
  let r := num % den
  if 2 * r < den then q
  else if den < 2 * r then q + 1
  else q + q % 2

/-- The double nearest to `num / den`, if it is finite. -/
def nearest? (num den : Nat) : Option Double :=
  let scaled := num * one
  let shift := Nat.log2 (scaled / den) + 1 - mantissaBits
  let mantissa := roundedQuotient scaled (den <<< shift)
  let d : Double :=
    if mantissa = 1 <<< mantissaBits then ⟨1 <<< (mantissaBits - 1), shift + 1⟩
    else ⟨mantissa, shift⟩
  if d.shift ≤ maxShift then some d else none

/-- The double nearest to a natural number, if it is finite. -/
def ofNat? (n : Nat) : Option Double :=
  nearest? n 1

/-- The product, if it is finite. -/
def mul? (a b : Double) : Option Double :=
  nearest? (a.units * b.units) (one * one)

/-- The quotient, if it is finite. -/
def div? (a b : Double) : Option Double :=
  nearest? a.units b.units

/-- A power of ten. -/
def tenTo (power : Nat) : Nat := Nat.pow 10 power

/-- The largest power of ten with a finite double. -/
def maxPower : Nat := 308

/-- Multiplies by a power of ten that is a double. -/
def scaleUp? (d : Double) (power : Nat) : Option Double := do
  d.mul? (← ofNat? (tenTo power))

/-- Divides by `10 ^ power`, in steps that each divide by a power of ten that is a double. -/
def scaleDown? (d : Double) (power : Nat) : Option Double :=
  if _h : power ≤ maxPower then do d.div? (← ofNat? (tenTo power))
  else if d.mantissa = 0 then some d
  else do scaleDown? (← d.div? (← ofNat? (tenTo maxPower))) (power - maxPower)
termination_by power
decreasing_by simp only [maxPower] at *; omega

/-- The double for `significand * 10 ^ exponent`, if it is finite. -/
def ofDecimal? (significand : Nat) (exponent : Int) : Option Double := do
  let d ← ofNat? significand
  match exponent with
  | .ofNat power =>
    if power ≤ maxPower then d.scaleUp? power
    else if d.mantissa = 0 then some d
    else none
  | .negSucc power => d.scaleDown? (power + 1)

/-- How many decimal places a number has to move left to be at least one, up to `limit`. -/
def leadingPlaces (num den : Nat) : (limit : Nat) → Nat
  | 0 => 0
  | limit + 1 => if den ≤ num then 0 else leadingPlaces (num * 10) den limit + 1

/-- The `e` with `10 ^ e ≤ num / den < 10 ^ (e + 1)`. -/
def decimalExponent (num den : Nat) : Int :=
  if den ≤ num then ((Nat.toDigits 10 (num / den)).length : Int) - 1
  else -(leadingPlaces num den 400 : Int)

/-- A number in decimal: the digits as a whole number, and the exponent of the first digit. -/
structure Decimal where
  digits : Nat
  exponent : Int

/-- The two whole numbers around a quotient, the nearer one first; of two equally near ones the
even one is first. -/
def neighbours (num den : Nat) : List Nat :=
  let below := num / den
  if roundedQuotient num den = below then [below, below + 1] else [below + 1, below]

/-- A decimal of `count` digits, when the digits may have grown by one. -/
def Decimal.carried (digits count : Nat) (exponent : Int) : Decimal :=
  if digits = tenTo count then ⟨tenTo (count - 1), exponent + 1⟩ else ⟨digits, exponent⟩

/-- The two decimals of `count` digits around a positive number, the nearer one first. -/
def decimalsOf (num den : Nat) (count : Nat) : List Decimal :=
  let e := decimalExponent num den
  let places : Int := (count : Int) - 1 - e
  let digits := match places with
    | .ofNat p => neighbours (num * tenTo p) den
    | .negSucc p => neighbours num (den * tenTo (p + 1))
  digits.map fun n => .carried n count e

/-- The double that a decimal of `count` digits reads as, without intermediate rounding. -/
def Decimal.read? (d : Decimal) (count : Nat) : Option Double :=
  match d.exponent - ((count : Int) - 1) with
  | .ofNat p => nearest? (d.digits * tenTo p) 1
  | .negSucc p => nearest? d.digits (tenTo (p + 1))

/-- The shortest decimal that reads as the double, trying `count` digits and up to `more` more.
The nearest one of that length is found first. -/
def search? (d : Double) (count : Nat) : (more : Nat) → Option Decimal
  | 0 => none
  | more + 1 =>
    ((decimalsOf d.units one count).find? fun decimal => decimal.read? count = some d).or
      (search? d (count + 1) more)

/-- The number of digits that tell any two doubles apart. -/
def maxDigits : Nat := 17

/-- The shortest decimal that reads as the double. -/
def shortest (d : Double) : Decimal :=
  if d.mantissa = 0 then ⟨0, 0⟩ else (d.search? 1 maxDigits).getD ⟨0, 0⟩

/-- The exponent of a number in scientific form, always with a sign. -/
def printExponent (e : Int) : String :=
  if e < 0 then s!"e{e}" else s!"e+{e}"

/-- Lays out the decimal digits of a number. -/
def layOut (digits : List Char) (e : Int) : String :=
  if -5 ≤ e ∧ e < 0 then
    "0." ++ String.ofList (List.replicate (e.natAbs - 1) '0' ++ digits)
  else if 0 ≤ e ∧ e < 16 then
    let whole := e.toNat + 1
    let front := digits.take whole ++ List.replicate (whole - digits.length) '0'
    let back := digits.drop whole
    String.ofList (front ++ '.' :: if back.isEmpty then ['0'] else back)
  else
    match digits with
    | [] => printExponent e
    | [d] => String.ofList [d] ++ printExponent e
    | d :: rest => String.ofList (d :: '.' :: rest) ++ printExponent e

/-- The shortest text that reads as the double. -/
def print (d : Double) : String :=
  layOut (Nat.toDigits 10 d.shortest.digits) d.shortest.exponent

end Double

end ManifestAtlas.Json
