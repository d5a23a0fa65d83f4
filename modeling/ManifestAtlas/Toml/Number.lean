import ManifestAtlas.Json.Double
import ManifestAtlas.Toml.Text

/-!
# Numbers and dates of TOML

Integers of 64 bits in four bases, floating-point numbers, and dates and times.
Only the form and the range of these values matter here; their text is kept.
-/

namespace ManifestAtlas.Toml

/-- A number, or a date, a time or both. -/
inductive Quantity where
  | integer (value : Int)
  | float (text : String)
  | moment (text : String)
  deriving DecidableEq, Repr

/-- Reads digits, in which single underscores may stand between two of them. -/
def digitRun (isDigit : Char → Bool) : Reader (List Char)
  | c :: '_' :: d :: rest =>
    if isDigit c then
      if isDigit d then do
        let (ds, rest) ← digitRun isDigit (d :: rest)
        some (c :: ds, rest)
      else some ([c], '_' :: d :: rest)
    else none
  | c :: rest =>
    if isDigit c then
      match digitRun isDigit rest with
      | some (ds, rest) => some (c :: ds, rest)
      | none => some ([c], rest)
    else none
  | [] => none

/-- The value of digits in a base. -/
def valueOf (base : Nat) (digits : List Char) : Nat :=
  digits.foldl (fun n c => n * base + (hexDigit? c).getD 0) 0

/-- An integer, if it fits into 64 bits. -/
def bounded (n : Int) : Option Quantity :=
  if Int64.minValue.toInt ≤ n ∧ n ≤ Int64.maxValue.toInt then some (.integer n) else none

/-- Reads an integer after its base mark. -/
def basedInteger (base : Nat) (isDigit : Char → Bool) : Reader Quantity := fun text => do
  let (digits, rest) ← digitRun isDigit text
  some (← bounded (valueOf base digits), rest)

/-- Reads the integer part of a number: a zero on its own, or digits without a zero in front. -/
def wholePart : Reader (List Char)
  | '0' :: rest => some (['0'], rest)
  | text => digitRun Char.isDigit text

/-- Reads a fraction, if there is one. -/
def fractionPart (text : List Char) : List Char × List Char :=
  match text with
  | '.' :: rest => (digitRun Char.isDigit rest).getD ([], text)
  | _ => ([], text)

/-- Reads an exponent, if there is one: its sign and its digits. -/
def exponentPart (text : List Char) : Option (Bool × List Char) × List Char :=
  let signed : List Char → Bool × List Char
    | '-' :: rest => (true, rest)
    | '+' :: rest => (false, rest)
    | rest => (false, rest)
  match text with
  | c :: rest =>
    if c = 'e' ∨ c = 'E' then
      let (negative, rest) := signed rest
      match digitRun Char.isDigit rest with
      | some (digits, rest) => (some (negative, digits), rest)
      | none => (none, text)
    else (none, text)
  | [] => (none, text)

/-- Whether the decimal number is finite as a double. -/
def isFinite (significand : Nat) (exponent : Int) : Bool :=
  if significand = 0 then true
  else
    let digits : Int := (Nat.toDigits 10 significand).length
    if digits + exponent < 300 then true
    else if 310 < digits + exponent then false
    else
      match exponent with
      | .ofNat p => (Json.Double.nearest? (significand * Json.Double.tenTo p) 1).isSome
      | .negSucc p => (Json.Double.nearest? significand (Json.Double.tenTo (p + 1))).isSome

/-- Reads a decimal number.  A positive number may not be too large for a double. -/
def decimal (negative : Bool) : Reader Quantity := fun text => do
  let (whole, rest) ← wholePart text
  let (fraction, rest) := fractionPart rest
  let (exponent, rest) := exponentPart rest
  if fraction.isEmpty && exponent.isNone then do
    let n : Int := valueOf 10 whole
    some (← bounded (if negative then -n else n), rest)
  else
    let shift : Int := match exponent with
      | some (true, digits) => -(valueOf 10 digits : Int)
      | some (false, digits) => valueOf 10 digits
      | none => 0
    if negative || isFinite (valueOf 10 (whole ++ fraction)) (shift - fraction.length) then
      some (.float (String.ofList (text.take (text.length - rest.length))), rest)
    else none

/-- Reads a decimal number or one of the special numbers, after the sign. -/
def unsigned (negative : Bool) : Reader Quantity
  | 'i' :: 'n' :: 'f' :: rest => some (.float "inf", rest)
  | 'n' :: 'a' :: 'n' :: rest => some (.float "nan", rest)
  | text => decimal negative text

/-- Reads a number. -/
def number : Reader Quantity
  | '0' :: 'x' :: rest => basedInteger 16 (fun c => (hexDigit? c).isSome) rest
  | '0' :: 'o' :: rest => basedInteger 8 (fun c => '0' ≤ c && c ≤ '7') rest
  | '0' :: 'b' :: rest => basedInteger 2 (fun c => c == '0' || c == '1') rest
  | '+' :: rest => unsigned false rest
  | '-' :: rest => unsigned true rest
  | text => unsigned false text

/-- Reads exactly `count` digits with a value from `low` to `high`. -/
def fixedDigits (count low high : Nat) : Reader Nat := fun text =>
  let digits := text.take count
  let n := valueOf 10 digits
  if digits.length = count && digits.all Char.isDigit && low ≤ n && n ≤ high then
    some (n, text.drop count)
  else none

/-- Reads one character. -/
def mark (c : Char) : Reader Unit
  | d :: rest => if c = d then some ((), rest) else none
  | [] => none

/-- The number of days of a month. -/
def daysIn (year month : Nat) : Nat :=
  if month = 2 then
    if year % 4 = 0 ∧ (year % 100 ≠ 0 ∨ year % 400 = 0) then 29 else 28
  else if month = 4 ∨ month = 6 ∨ month = 9 ∨ month = 11 then 30
  else 31

/-- Reads a date. -/
def date : Reader Unit := fun text => do
  let (year, rest) ← fixedDigits 4 0 9999 text
  let ((), rest) ← mark '-' rest
  let (month, rest) ← fixedDigits 2 1 12 rest
  let ((), rest) ← mark '-' rest
  let (_, rest) ← fixedDigits 2 1 (daysIn year month) rest
  some ((), rest)

/-- Reads the fraction of a second, if there is one. -/
def secondFraction (text : List Char) : Option (List Char) :=
  match text with
  | '.' :: rest =>
    let digits := rest.takeWhile Char.isDigit
    if digits.isEmpty then none else some (rest.drop digits.length)
  | _ => some text

/-- Reads the time of a day. -/
def time : Reader Unit := fun text => do
  let (_, rest) ← fixedDigits 2 0 23 text
  let ((), rest) ← mark ':' rest
  let (_, rest) ← fixedDigits 2 0 59 rest
  let ((), rest) ← mark ':' rest
  let (_, rest) ← fixedDigits 2 0 60 rest
  some ((), ← secondFraction rest)

/-- Reads an offset from universal time, if there is one. -/
def offset (text : List Char) : Option (List Char) :=
  let hours (rest : List Char) : Option (List Char) := do
    let (_, rest) ← fixedDigits 2 0 23 rest
    let ((), rest) ← mark ':' rest
    let (_, rest) ← fixedDigits 2 0 59 rest
    some rest
  match text with
  | 'Z' :: rest | 'z' :: rest => some rest
  | '+' :: rest | '-' :: rest => hours rest
  | _ => some text

/-- Reads a time and an offset after a date, if they are there. -/
def timeAfterDate (text : List Char) : Option (List Char) :=
  match text with
  | c :: rest =>
    if c = 'T' ∨ c = 't' then do offset (← time rest).2
    else if c = ' ' ∧ (rest.head?.any Char.isDigit) then do offset (← time rest).2
    else some text
  | [] => some text

/-- Whether a text starts like a date. -/
def opensDate (text : List Char) : Bool :=
  match text with
  | a :: b :: c :: d :: '-' :: _ => [a, b, c, d].all Char.isDigit
  | _ => false

/-- Whether a text starts like the time of a day. -/
def opensTime (text : List Char) : Bool :=
  match text with
  | a :: b :: ':' :: _ => a.isDigit && b.isDigit
  | _ => false

/-- Reads a number, a date or a time. -/
def quantity : Reader Quantity := fun text =>
  let moment (rest : List Char) : Quantity × List Char :=
    (.moment (String.ofList (text.take (text.length - rest.length))), rest)
  if opensDate text then do
    let ((), rest) ← date text
    some (moment (← timeAfterDate rest))
  else if opensTime text then do
    let ((), rest) ← time text
    some (moment rest)
  else number text

end ManifestAtlas.Toml
