import ApiContract.Json.Basic
import ApiContract.Text.Ascii
import ApiContract.Text.Split
import ApiContract.Text.Utf8

/-!
# Reading JSON

A JSON text is one value with blanks around it. Members keep document order; of members with one
name the last value counts, at the place of the first. Nesting is limited, and a number too large
for binary64 is refused.
-/

namespace ApiContract.Json

/-- A reader of a prefix: what it read and the rest of the text. -/
abbrev Prefixed (α : Type) := List Char → Option (α × List Char)

def isSpace (c : Char) : Bool := c = ' ' || c = '\n' || c = '\t' || c = '\r'

def skipSpace (text : List Char) : List Char := text.dropWhile isSpace

/-! ## Strings -/

/-- The code unit of four hexadecimal digits. -/
def codeUnit? : Prefixed Nat
  | a :: b :: c :: d :: rest => (Text.hexNumber? [a, b, c, d]).map fun n => (n, rest)
  | _ => none

/-- The character of an escape `\u`, one code unit or a surrogate pair. -/
def unicodeEscape? (text : List Char) : Option (Char × List Char) := do
  let (unit, rest) ← codeUnit? text
  if 0xD800 ≤ unit && unit < 0xDC00 then
    match rest with
    | '\\' :: 'u' :: behind =>
      let (second, rest) ← codeUnit? behind
      if 0xDC00 ≤ second && second < 0xE000 then
        return (Char.ofNat (0x10000 + (unit - 0xD800) * 0x400 + (second - 0xDC00)), rest)
      else none
    | _ => none
  else if 0xDC00 ≤ unit && unit < 0xE000 then
    none
  else
    return (Char.ofNat unit, rest)

/-- The characters of a string up to its closing quote, at most `fuel` of them. -/
def stringBody? : Nat → Prefixed (List Char)
  | 0, _ => none
  | fuel + 1, text =>
    match text with
    | [] => none
    | '"' :: rest => some ([], rest)
    | '\\' :: 'u' :: rest => do
      let (c, rest) ← unicodeEscape? rest
      let (body, rest) ← stringBody? fuel rest
      return (c :: body, rest)
    | '\\' :: e :: rest => do
      let c ←
        match e with
        | '"' => some '"'
        | '\\' => some '\\'
        | '/' => some '/'
        | 'b' => some (Char.ofNat 8)
        | 'f' => some (Char.ofNat 12)
        | 'n' => some '\n'
        | 'r' => some '\r'
        | 't' => some '\t'
        | _ => none
      let (body, rest) ← stringBody? fuel rest
      return (c :: body, rest)
    | c :: rest =>
      if c.toNat < 32 then none
      else do
        let (body, rest) ← stringBody? fuel rest
        return (c :: body, rest)

/-- A string, behind its opening quote. -/
def string? (text : List Char) : Option (String × List Char) :=
  (stringBody? (text.length + 1) text).map fun (body, rest) => (String.ofList body, rest)

/-! ## Numbers -/

/-- The largest unsigned integer of 64 bits. -/
def maxSignificand : Nat := 2 ^ 64 - 1

/-- Scales an integer of 64 bits by a power of ten: the integer is rounded to binary64 and then
multiplied or divided once for each 308 decimal places. -/
def scale? (negative : Bool) (significand : Nat) (exponent : Int) : Option Binary64 :=
  go 8 (.ofInt significand) exponent
where
  finish (x : Binary64) : Binary64 := if negative then x.neg else x
  go : Nat → Binary64 → Int → Option Binary64
    | 0, x, _ => some (finish x)
    | fuel + 1, x, exponent =>
      if exponent.natAbs ≤ 308 then
        let power := Binary64.ofInt (10 ^ exponent.natAbs : Nat)
        if 0 ≤ exponent then
          let y := x.mul power
          if y.isFinite then some (finish y) else none
        else
          some (finish (x.div power))
      else if x.same .zero then
        some (finish x)
      else if 0 ≤ exponent then
        none
      else
        go fuel (x.div (.ofInt (10 ^ 308 : Nat))) (exponent + 308)

/-- Reads digits into an integer as long as it stays within 64 bits; the number of digits read and
of digits that no longer fit follow it. -/
def accumulate : List Char → Nat → Nat × Nat × Nat
  | [], value => (value, 0, 0)
  | c :: rest, value =>
    let grown := 10 * value + Numeral.digitValue c
    if grown ≤ maxSignificand then
      let (result, kept, dropped) := accumulate rest grown
      (result, kept + 1, dropped)
    else
      (value, 0, rest.length + 1)

/-- An exponent behind its mark: an optional sign and digits. -/
def exponent? (text : List Char) : Option (Int × List Char) :=
  let (negative, digits) := Numeral.splitSign text
  let number := digits.takeWhile Numeral.isDigit
  if number.isEmpty then none
  else
    let magnitude : Int := Numeral.ofDigits number
    some (if negative then -magnitude else magnitude, digits.dropWhile Numeral.isDigit)

/-- Exponents beyond this one make a number zero or too large. -/
def maxExponent : Int := 2 ^ 31 - 1

/-- The value of a significand with an exponent that was written out. -/
def withExponent? (negative : Bool) (significand : Nat) (start written : Int) : Option Binary64 :=
  if written.natAbs ≤ maxExponent.toNat then
    scale? negative significand (start + written)
  else if significand != 0 && 0 ≤ written then
    none
  else
    some (if negative then Binary64.zero.neg else .zero)

/-- A number with its fraction and exponent still to be read; `start` is the number of digits that
did not fit the significand. -/
def fractionAndExponent? (negative : Bool) (significand : Nat) (start : Int)
    (text : List Char) : Option (Json × List Char) := do
  let (significand, exponent, text) ←
    match text with
    | '.' :: rest =>
      let fraction := rest.takeWhile Numeral.isDigit
      if fraction.isEmpty then none
      else
        let (value, kept, _) := accumulate fraction significand
        some (value, start - (kept : Int), rest.dropWhile Numeral.isDigit)
    | rest => some (significand, start, rest)
  match text with
  | mark :: rest =>
    if mark = 'e' || mark = 'E' then
      let (written, rest) ← exponent? rest
      let x ← withExponent? negative significand exponent written
      return (.decimal x, rest)
    else
      let x ← scale? negative significand exponent
      return (.decimal x, mark :: rest)
  | [] =>
    let x ← scale? negative significand exponent
    return (.decimal x, [])

/-- A number without its sign. -/
def unsignedNumber? (negative : Bool) (text : List Char) : Option (Json × List Char) :=
  let whole := text.takeWhile Numeral.isDigit
  let behind := text.dropWhile Numeral.isDigit
  match whole with
  | [] => none
  | '0' :: _ :: _ => none
  | _ =>
    let (significand, _, dropped) := accumulate whole 0
    let isWhole :=
      match behind with
      | '.' :: _ => false
      | 'e' :: _ => false
      | 'E' :: _ => false
      | _ => dropped == 0
    if !isWhole then
      fractionAndExponent? negative significand dropped behind
    else if !negative then
      some (.integer significand, behind)
    else if significand != 0 && significand ≤ 2 ^ 63 then
      some (.integer (-significand), behind)
    else
      some (.decimal (Binary64.ofInt significand).neg, behind)

/-- A number. -/
def number? : List Char → Option (Json × List Char)
  | '-' :: rest => unsignedNumber? true rest
  | text => unsignedNumber? false text

/-! ## Values -/

/-- The items of an array behind its first bracket and blanks, read by `value`. -/
def items? (value : Prefixed Json) : Nat → Prefixed (List Json)
  | 0, _ => none
  | fuel + 1, text => do
    let (item, rest) ← value text
    match skipSpace rest with
    | ',' :: rest =>
      let (items, rest) ← items? value fuel (skipSpace rest)
      return (item :: items, rest)
    | ']' :: rest => return ([item], rest)
    | _ => none

/-- The members of an object behind its first brace and blanks, their values read by `value`. -/
def members? (value : Prefixed Json) : Nat → Prefixed (List (String × Json))
  | 0, _ => none
  | fuel + 1, text => do
    let (name, rest) ←
      match text with
      | '"' :: rest => string? rest
      | _ => none
    let rest ←
      match skipSpace rest with
      | ':' :: rest => some (skipSpace rest)
      | _ => none
    let (member, rest) ← value rest
    match skipSpace rest with
    | c :: rest =>
      if c = ',' then
        let (members, rest) ← members? value fuel (skipSpace rest)
        return ((name, member) :: members, rest)
      else if c = Char.ofNat 0x7D then
        return ([(name, member)], rest)
      else none
    | [] => none

/-- A value that does not open more than `depth` arrays and objects inside each other. -/
def value? : Nat → Prefixed Json
  | depth, text =>
    match text with
    | [] => none
    | c :: rest =>
      if c = 'n' then (Text.stripStart? "ull".toList rest).map fun rest => (.null, rest)
      else if c = 't' then (Text.stripStart? "rue".toList rest).map fun rest => (.bool true, rest)
      else if c = 'f' then (Text.stripStart? "alse".toList rest).map fun rest => (.bool false, rest)
      else if c = '"' then (string? rest).map fun (body, rest) => (.string body, rest)
      else if c = '[' then
        match depth with
        | 0 => none
        | depth + 1 =>
          match skipSpace rest with
          | ']' :: rest => some (.array [], rest)
          | inner => (items? (value? depth) (inner.length + 1) inner).map fun (items, rest) =>
            (.array items, rest)
      else if c = Char.ofNat 0x7B then
        match depth with
        | 0 => none
        | depth + 1 =>
          match skipSpace rest with
          | [] => none
          | d :: more =>
            if d = Char.ofNat 0x7D then some (.object [], more)
            else
              (members? (value? depth) (more.length + 2) (d :: more)).map fun (members, rest) =>
                (.object (Entries.ofPairs members), rest)
      else number? (c :: rest)

/-- How many arrays and objects may be open at once. -/
def maxDepth : Nat := 127

/-- The value that a text holds. -/
def ofText? (text : List Char) : Option Json := do
  let (value, rest) ← value? maxDepth (skipSpace text)
  if (skipSpace rest).isEmpty then some value else none

/-- The value that a UTF-8 text holds. -/
def ofBytes? (bytes : List UInt8) : Option Json :=
  match Utf8.decode bytes with
  | .ok text => ofText? text
  | .error _ => none

def ofString? (text : String) : Option Json := ofText? text.toList

end ApiContract.Json
