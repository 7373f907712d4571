import ApiContract.Number.Numeral
import ApiContract.Text.Blank

/-!
# Calendar dates

Dates of the proleptic Gregorian calendar with years counted astronomically (year 0 precedes
year 1). A date is written `YYYY-MM-DD`; a year outside four digits gets a sign. Reading is more
liberal than writing: numbers may be short, and blanks may precede each of them.
-/

namespace ApiContract.Calendar

def isLeapYear (year : Int) : Bool := year % 4 == 0 && (year % 100 != 0 || year % 400 == 0)

def daysInMonth (year : Int) (month : Nat) : Nat :=
  match month with
  | 2 => if isLeapYear year then 29 else 28
  | 4 => 30
  | 6 => 30
  | 9 => 30
  | 11 => 30
  | _ => 31

/-- Year, month and day of an existing date within the supported range of years. -/
def IsDate (year : Int) (month day : Nat) : Prop :=
  -262143 ≤ year ∧ year ≤ 262142 ∧ 1 ≤ month ∧ month ≤ 12 ∧ 1 ≤ day ∧
    day ≤ daysInMonth year month

instance (year : Int) (month day : Nat) : Decidable (IsDate year month day) := by
  unfold IsDate
  infer_instance

structure Date where
  year : Int
  month : Nat
  day : Nat
  isDate : IsDate year month day
  deriving DecidableEq

/-- A natural number in decimal digits, filled up with zeros on the left. -/
def padded (width n : Nat) : List Char :=
  let digits := Numeral.digitsOf n
  List.replicate (width - digits.length) '0' ++ digits

/-- The digits of a year, with a sign unless there are four of them. -/
def yearText (year : Int) : List Char :=
  if 0 ≤ year && year ≤ 9999 then padded 4 year.toNat
  else (if year < 0 then '-' else '+') :: padded 4 year.natAbs

namespace Date

def ofParts? (year : Int) (month day : Nat) : Option Date :=
  if h : IsDate year month day then some ⟨year, month, day, h⟩ else none

def toText (d : Date) : List Char :=
  yearText d.year ++ '-' :: padded 2 d.month ++ '-' :: padded 2 d.day

/-- One to `most` digits at the front of a text. -/
def number? (most : Nat) (text : List Char) : Option (Nat × List Char) :=
  let digits := (text.takeWhile Numeral.isDigit).take most
  if digits.isEmpty then none else some (Numeral.ofDigits digits, text.drop digits.length)

/-- A year: with a sign as many digits as there are, without one at most four. -/
def year? (text : List Char) : Option (Int × List Char) :=
  match text with
  | '-' :: rest => (number? rest.length rest).map fun (n, rest) => (-(n : Int), rest)
  | '+' :: rest => (number? rest.length rest).map fun (n, rest) => ((n : Int), rest)
  | rest => (number? 4 rest).map fun (n, rest) => ((n : Int), rest)

def hyphen? : List Char → Option (List Char)
  | '-' :: rest => some rest
  | _ => none

/-- The date that a text holds. -/
def ofText? (text : List Char) : Option Date := do
  let (year, rest) ← year? (text.dropWhile Text.isBlank)
  let rest ← hyphen? rest
  let (month, rest) ← number? 2 (rest.dropWhile Text.isBlank)
  let rest ← hyphen? rest
  let (day, rest) ← number? 2 (rest.dropWhile Text.isBlank)
  if rest.isEmpty then ofParts? year month day else none

/-- Days since the first of March of year 0. -/
def dayNumber (d : Date) : Int :=
  let year := if d.month ≤ 2 then d.year - 1 else d.year
  let month : Int := if d.month ≤ 2 then d.month + 9 else d.month - 3
  365 * year + year / 4 - year / 100 + year / 400 + (153 * month + 2) / 5 + d.day - 1

end Date

end ApiContract.Calendar
