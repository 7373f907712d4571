import ApiContract.Calendar.Date

/-!
# Timestamps

A date, a time of day and an offset from UTC, written as RFC 3339 prescribes with the offset always
numeric. Two timestamps are the same when they name the same instant, whatever their offsets.
-/

namespace ApiContract.Calendar

/-- A time of day; second 60 is a leap second. -/
def IsTime (hour minute second nanosecond : Nat) : Prop :=
  hour < 24 ∧ minute < 60 ∧ second ≤ 60 ∧ nanosecond < 1000000000

instance (hour minute second nanosecond : Nat) :
    Decidable (IsTime hour minute second nanosecond) := by
  unfold IsTime
  infer_instance

/-- A local date and time; the offset counts minutes east of UTC. -/
structure Timestamp where
  date : Date
  hour : Nat
  minute : Nat
  second : Nat
  nanosecond : Nat
  offset : Int
  isTime : IsTime hour minute second nanosecond
  isOffset : offset.natAbs < 24 * 60
  deriving DecidableEq

namespace Timestamp

def ofParts? (date : Date) (hour minute second nanosecond : Nat) (offset : Int) :
    Option Timestamp :=
  if h : IsTime hour minute second nanosecond ∧ offset.natAbs < 24 * 60 then
    some ⟨date, hour, minute, second, nanosecond, offset, h.1, h.2⟩
  else none

/-- Seconds of UTC up to the timestamp, and nanoseconds beyond; a leap second counts as the second
before it with more than a second of nanoseconds. -/
def instant (t : Timestamp) : Int × Nat :=
  let seconds : Int :=
    86400 * t.date.dayNumber + 3600 * t.hour + 60 * t.minute + min t.second 59 - 60 * t.offset
  (seconds, if t.second = 60 then t.nanosecond + 1000000000 else t.nanosecond)

/-- Whether two timestamps name one instant. -/
def same (a b : Timestamp) : Bool := a.instant == b.instant

/-- A fraction of a second with as many groups of three digits as it needs. -/
def fractionText (nanosecond : Nat) : List Char :=
  if nanosecond = 0 then []
  else if nanosecond % 1000000 = 0 then '.' :: padded 3 (nanosecond / 1000000)
  else if nanosecond % 1000 = 0 then '.' :: padded 6 (nanosecond / 1000)
  else '.' :: padded 9 nanosecond

def offsetText (offset : Int) : List Char :=
  (if offset < 0 then '-' else '+') ::
    padded 2 (offset.natAbs / 60) ++ ':' :: padded 2 (offset.natAbs % 60)

def toText (t : Timestamp) : List Char :=
  t.date.toText ++ 'T' :: padded 2 t.hour ++ ':' :: padded 2 t.minute ++ ':' :: padded 2 t.second ++
    fractionText t.nanosecond ++ offsetText t.offset

/-- Exactly `count` digits at the front of a text. -/
def digits? (count : Nat) (text : List Char) : Option (Nat × List Char) :=
  let digits := text.take count
  if digits.length = count ∧ digits.all Numeral.isDigit then
    some (Numeral.ofDigits digits, text.drop count)
  else none

def expect? (allowed : List Char) : List Char → Option (List Char)
  | c :: rest => if allowed.contains c then some rest else none
  | [] => none

/-- A fraction of a second, if a point announces one; digits after the ninth are dropped. -/
def fraction? (text : List Char) : Option (Nat × List Char) :=
  match text with
  | '.' :: rest =>
    let digits := rest.takeWhile Numeral.isDigit
    if digits.isEmpty then none
    else
      let kept := digits.take 9
      some (Numeral.ofDigits kept * 10 ^ (9 - kept.length), rest.drop digits.length)
  | rest => some (0, rest)

/-- An offset: the letter Z, or a sign (also the minus sign U+2212) with hours and minutes. -/
def offset? (text : List Char) : Option (Int × List Char) :=
  match text with
  | [] => none
  | c :: rest =>
    if c = 'Z' || c = 'z' then some (0, rest)
    else if c = '+' || c = '-' || c = Char.ofNat 0x2212 then do
      let (hours, rest) ← digits? 2 rest
      let rest ← expect? [':'] rest
      let (minutes, rest) ← digits? 2 rest
      if minutes < 60 then
        let magnitude : Int := (60 * hours + minutes : Nat)
        some (if c = '+' then magnitude else -magnitude, rest)
      else none
    else none

/-- The timestamp that a text holds. -/
def ofText? (text : List Char) : Option Timestamp := do
  let (year, rest) ← digits? 4 text
  let rest ← expect? ['-'] rest
  let (month, rest) ← digits? 2 rest
  let rest ← expect? ['-'] rest
  let (day, rest) ← digits? 2 rest
  let rest ← expect? ['T', 't', ' '] rest
  let (hour, rest) ← digits? 2 rest
  let rest ← expect? [':'] rest
  let (minute, rest) ← digits? 2 rest
  let rest ← expect? [':'] rest
  let (second, rest) ← digits? 2 rest
  let (nanosecond, rest) ← fraction? rest
  let (offset, rest) ← offset? rest
  let date ← Date.ofParts? year month day
  if rest.isEmpty then ofParts? date hour minute second nanosecond offset else none

end Timestamp

end ApiContract.Calendar
