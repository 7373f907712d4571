import ApiContract.Number.Shortest

/-!
# Numerals

How numbers are written and read as text. An integer is an optional sign and digits. A binary64
number is written with its shortest digits, either always positionally (`Binary64.toPositional`) or
the way a JSON document shows it (`Binary64.toJsonNumeral`), and read from a decimal numeral with an
optional fraction and exponent (`Binary64.ofNumeral?`).
-/

namespace ApiContract

namespace Numeral

def isDigit (c : Char) : Bool := '0' ≤ c && c ≤ '9'

def digitValue (c : Char) : Nat := c.toNat - '0'.toNat

/-- The number that a row of decimal digits stands for. -/
def ofDigits (digits : List Char) : Nat :=
  digits.foldl (fun value c => 10 * value + digitValue c) 0

/-- The number that digits stand for, if there is at least one and nothing else. -/
def natural? (text : List Char) : Option Nat :=
  if !text.isEmpty && text.all isDigit then some (ofDigits text) else none

/-- An optional sign in front of the rest; `true` is minus. -/
def splitSign : List Char → Bool × List Char
  | '-' :: rest => (true, rest)
  | '+' :: rest => (false, rest)
  | text => (false, text)

/-- An integer in decimal digits, with an optional sign. -/
def integer? (text : List Char) : Option Int :=
  match splitSign text with
  | (true, digits) => (natural? digits).map fun n => -(n : Int)
  | (false, digits) => (natural? digits).map fun n => (n : Int)

/-- An integer of 64 bits in decimal digits, with an optional sign. -/
def int64? (text : List Char) : Option Int64 :=
  match integer? text with
  | some i => if Int64.minValue.toInt ≤ i && i ≤ Int64.maxValue.toInt then some (.ofInt i) else none
  | none => none

/-- The decimal digits of a natural number. -/
def digitsOf (n : Nat) : List Char := Nat.toDigits 10 n

def zeros (n : Nat) : List Char := List.replicate n '0'

/-- A decimal written without an exponent. -/
def positional (d : Shortest.Decimal) : List Char :=
  let digits := digitsOf d.digits
  if 0 ≤ d.exponent then
    digits ++ zeros d.exponent.toNat
  else
    let places := (-d.exponent).toNat
    if places < digits.length then
      digits.take (digits.length - places) ++ '.' :: digits.drop (digits.length - places)
    else
      '0' :: '.' :: zeros (places - digits.length) ++ digits

/-- A decimal written with one digit in front of the point and a signed exponent. -/
def scientific (d : Shortest.Decimal) : List Char :=
  let digits := digitsOf d.digits
  let exponent := d.exponent + (digits.length - 1 : Nat)
  let mantissa :=
    match digits with
    | [] => ['0']
    | [only] => [only]
    | first :: rest => first :: '.' :: rest
  let sign := if exponent < 0 then '-' else '+'
  mantissa ++ 'e' :: sign :: digitsOf exponent.natAbs

/-- The decimal exponents at which a JSON document shows a number positionally. -/
def isPositionalInJson (leading : Int) : Bool := -5 ≤ leading && leading < 16

end Numeral

namespace Binary64

open Numeral

private def signed (negative : Bool) (text : List Char) : String :=
  String.ofList (if negative then '-' :: text else text)

/-- The shortest digits that read back, never with an exponent; an integral number has no point. -/
def toPositional : Binary64 → String
  | .nan => "NaN"
  | .infinity negative => signed negative "inf".toList
  | .finite negative units _ =>
    if units = 0 then signed negative ['0']
    else signed negative (positional (Shortest.digits .up units))

/-- The shortest digits that read back, with a fraction always shown and an exponent outside
`1e-5 ≤ |x| < 1e16`; what is not finite has no numeral. -/
def toJsonNumeral? : Binary64 → Option String
  | .finite negative units _ =>
    if units = 0 then
      some (signed negative "0.0".toList)
    else
      let decimal := Shortest.digits .toEven units
      let leading := decimal.exponent + ((digitsOf decimal.digits).length - 1 : Nat)
      if isPositionalInJson leading then
        let text := positional decimal
        some (signed negative (if 0 ≤ decimal.exponent then text ++ ['.', '0'] else text))
      else
        some (signed negative (scientific decimal))
  | _ => none

private def lower (c : Char) : Char := if 'A' ≤ c && c ≤ 'Z' then Char.ofNat (c.toNat + 32) else c

/-- An exponent mark with digits behind it, or nothing at all. -/
private def exponent? : List Char → Option Int
  | [] => some 0
  | mark :: rest => if mark = 'e' || mark = 'E' then integer? rest else none

/-- A number from digits, an optional fraction and an optional exponent, or from one of the words
`inf`, `infinity` and `nan` in any case; a sign may precede each. -/
def ofNumeral? (text : List Char) : Option Binary64 :=
  let (negative, body) := splitSign text
  let word := body.map lower
  if word = "inf".toList || word = "infinity".toList then
    some (.infinity negative)
  else if word = "nan".toList then
    some .nan
  else
    let whole := body.takeWhile isDigit
    let afterWhole := body.dropWhile isDigit
    let (fraction, afterFraction) :=
      match afterWhole with
      | '.' :: rest => (rest.takeWhile isDigit, rest.dropWhile isDigit)
      | rest => ([], rest)
    if whole.isEmpty && fraction.isEmpty then
      none
    else
      (exponent? afterFraction).map fun e =>
        ofDecimal negative (ofDigits (whole ++ fraction)) (e - fraction.length)

end Binary64

end ApiContract
