import ApiContract.Number.Numeral
import ApiContract.Text.Ascii
import ApiContract.Text.Split

/-!
# Internet addresses as text

IPv4 addresses in dotted decimal form and IPv6 addresses in groups of hexadecimal digits, where `::`
stands for one or more zero groups and the last two groups may be an IPv4 address.
-/

namespace ApiContract.Address

/-- A decimal number of at most three digits below 256, without leading zeros. -/
def octet? (digits : List Char) : Option Nat :=
  match digits with
  | [] => none
  | '0' :: _ :: _ => none
  | _ =>
    if digits.length ≤ 3 && digits.all Numeral.isDigit then
      let n := Numeral.ofDigits digits
      if n < 256 then some n else none
    else none

/-- The longest prefix that could be part of an IPv4 address, and the rest. -/
def dottedPrefix (text : List Char) : List Char × List Char :=
  let belongs (c : Char) : Bool := Numeral.isDigit c || c == '.'
  (text.takeWhile belongs, text.dropWhile belongs)

/-- The four numbers of an IPv4 address. -/
def ipv4? (text : List Char) : Option (List Nat) :=
  match (Text.splitAll '.' text).mapM octet? with
  | some [a, b, c, d] => some [a, b, c, d]
  | _ => none

/-- One group of at most four hexadecimal digits. -/
def group? (text : List Char) : Option (Nat × List Char) :=
  let isHex (c : Char) : Bool := (Text.hexValue? c).isSome
  let digits := text.takeWhile isHex
  if digits.length ≤ 4 then
    (Text.hexNumber? digits).map fun n => (n, text.dropWhile isHex)
  else none

/-- A reader behind a colon, unless nothing was read before. -/
def separated? {α : Type} (isFirst : Bool) (read : List Char → Option α) (text : List Char) :
    Option α :=
  if isFirst then read text
  else
    match text with
    | ':' :: rest => read rest
    | _ => none

/-- An IPv4 address as two groups. -/
def dotted? (text : List Char) : Option (List Nat × List Char) :=
  let (front, rest) := dottedPrefix text
  match ipv4? front with
  | some [a, b, c, d] => some ([256 * a + b, 256 * c + d], rest)
  | _ => none

/-- The groups at the front of a text, at most `limit`; the flag tells whether an IPv4 address ended
them. -/
def groups (isFirst : Bool) : (limit : Nat) → List Char → List Nat × Bool × List Char
  | 0, text => ([], false, text)
  | limit + 1, text =>
    let embedded := if 0 < limit then separated? isFirst dotted? text else none
    match embedded with
    | some (pair, rest) => (pair, true, rest)
    | none =>
      match separated? isFirst group? text with
      | some (n, rest) =>
        let (more, isDotted, rest) := groups false limit rest
        (n :: more, isDotted, rest)
      | none => ([], false, text)

/-- The eight groups of an IPv6 address. -/
def ipv6? (text : List Char) : Option (List Nat) :=
  let (head, headIsDotted, rest) := groups true 8 text
  if head.length = 8 then
    if rest.isEmpty then some head else none
  else if headIsDotted then
    none
  else
    match rest with
    | ':' :: ':' :: rest =>
      let (tail, _, rest) := groups true (7 - head.length) rest
      if rest.isEmpty then
        some (head ++ List.replicate (8 - head.length - tail.length) 0 ++ tail)
      else none
    | _ => none

end ApiContract.Address
