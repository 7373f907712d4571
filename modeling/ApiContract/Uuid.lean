import ApiContract.Text.Ascii
import ApiContract.Text.Split

/-!
# Universally unique identifiers

Identifiers of 128 bits, written as 32 lower case hexadecimal digits in groups of 8, 4, 4, 4 and 12.
They are read from that form, in braces or behind `urn:uuid:` too, or from the bare digits, in any
letter case.
-/

namespace ApiContract

/-- An identifier of 128 bits. -/
structure Uuid where
  bits : BitVec 128
  deriving DecidableEq

namespace Uuid

/-- The `count` lowest hexadecimal digits of a number. -/
def hexDigits : (count n : Nat) → List Char
  | 0, _ => []
  | count + 1, n => hexDigits count (n / 16) ++ [Text.hexDigit (n % 16)]

/-- The digits in their groups. -/
def toText (u : Uuid) : List Char :=
  let digits := hexDigits 32 u.bits.toNat
  digits.take 8 ++ '-' :: (digits.drop 8).take 4 ++ '-' :: (digits.drop 12).take 4 ++
    '-' :: (digits.drop 16).take 4 ++ '-' :: digits.drop 20

/-- The identifier with the given 32 digits. -/
def ofDigits? (digits : List Char) : Option Uuid :=
  if digits.length = 32 then
    (Text.hexNumber? digits).map fun n => ⟨BitVec.ofNat 128 n⟩
  else none

/-- The identifier written in groups. -/
def ofGroups? (text : List Char) : Option Uuid :=
  match Text.splitAll '-' text with
  | [a, b, c, d, e] =>
    if a.length = 8 ∧ b.length = 4 ∧ c.length = 4 ∧ d.length = 4 ∧ e.length = 12 then
      ofDigits? (a ++ b ++ c ++ d ++ e)
    else none
  | _ => none

/-- The text between braces. -/
def inBraces? (text : List Char) : Option (List Char) :=
  match text, text.getLast? with
  | left :: rest, some right =>
    if left = Char.ofNat 0x7B ∧ right = Char.ofNat 0x7D ∧ 0 < rest.length then
      some rest.dropLast
    else none
  | _, _ => none

/-- The identifier that a text holds. -/
def ofText? (text : List Char) : Option Uuid :=
  match ofDigits? text with
  | some u => some u
  | none =>
    match ofGroups? text with
    | some u => some u
    | none =>
      match inBraces? text with
      | some inner => ofGroups? inner
      | none =>
        match Text.stripStart? "urn:uuid:".toList text with
        | some rest => ofGroups? rest
        | none => none

end Uuid

end ApiContract
