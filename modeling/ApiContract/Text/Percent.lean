import ApiContract.Text.Ascii
import ApiContract.Text.Split
import ApiContract.Text.Utf8

/-!
# Percent encoding

A percent sign with two hexadecimal digits stands for a byte; any other percent sign stands for
itself. What the bytes then spell is read as UTF-8 with replacement characters.
-/

namespace ApiContract.Percent

/-- The byte that two hexadecimal digits spell. -/
def byte? (high low : Char) : Option UInt8 := do
  let h ← Text.hexValue? high
  let l ← Text.hexValue? low
  return .ofNat (16 * h + l)

/-- The bytes that a percent-encoded sequence of bytes stands for. -/
def decodeBytes : List UInt8 → List UInt8
  | [] => []
  | [b] => [b]
  | [b, c] => [b, c]
  | b :: high :: low :: rest =>
    if b = 0x25 then
      match byte? (Char.ofNat high.toNat) (Char.ofNat low.toNat) with
      | some decoded => decoded :: decodeBytes rest
      | none => b :: decodeBytes (high :: low :: rest)
    else
      b :: decodeBytes (high :: low :: rest)

/-- The text that a percent-encoded text stands for. -/
def decode (text : List Char) : List Char := Utf8.decodeLossy (decodeBytes (Utf8.encode text))

def decodeString (text : String) : String := String.ofList (decode text.toList)

/-- The upper case hexadecimal digit of a number below sixteen. -/
def upperHexDigit (n : Nat) : Char := Text.upperChar (Text.hexDigit n)

/-- A byte as a percent sign and two digits. -/
def encodeByte (b : UInt8) : List Char :=
  ['%', upperHexDigit (b.toNat / 16), upperHexDigit (b.toNat % 16)]

/-- A text with every byte of the characters that `escaped` picks percent-encoded. -/
def encode (escaped : Char → Bool) (text : List Char) : List Char :=
  text.flatMap fun c => if escaped c then (Utf8.encodeChar c).flatMap encodeByte else [c]

end ApiContract.Percent
