/-!
# Letter case of ASCII

Names that travel in HTTP messages are compared without regard to the case of ASCII letters; other
characters are compared as they are.
-/

namespace ApiContract.Text

def isUpperLetter (c : Char) : Bool := 'A' ≤ c && c ≤ 'Z'

def isLowerLetter (c : Char) : Bool := 'a' ≤ c && c ≤ 'z'

def isLetter (c : Char) : Bool := isUpperLetter c || isLowerLetter c

def lowerChar (c : Char) : Char := if isUpperLetter c then Char.ofNat (c.toNat + 32) else c

def upperChar (c : Char) : Char := if isLowerLetter c then Char.ofNat (c.toNat - 32) else c

/-- A text with its ASCII letters in lower case. -/
def lowered (text : String) : String := String.ofList (text.toList.map lowerChar)

/-- A text with its ASCII letters in upper case. -/
def uppered (text : String) : String := String.ofList (text.toList.map upperChar)

/-- Equality up to the case of ASCII letters. -/
def sameLetters (a b : String) : Bool := lowered a == lowered b

/-- The value of a hexadecimal digit. -/
def hexValue? (c : Char) : Option Nat :=
  if '0' ≤ c && c ≤ '9' then some (c.toNat - '0'.toNat)
  else if 'a' ≤ c && c ≤ 'f' then some (c.toNat - 'a'.toNat + 10)
  else if 'A' ≤ c && c ≤ 'F' then some (c.toNat - 'A'.toNat + 10)
  else none

/-- The number that a row of hexadecimal digits stands for, if it is one. -/
def hexNumber? (text : List Char) : Option Nat :=
  if text.isEmpty then none
  else text.foldlM (fun value c => (hexValue? c).map (16 * value + ·)) 0

/-- The lower case hexadecimal digit of a number below sixteen. -/
def hexDigit (n : Nat) : Char :=
  if n < 10 then Char.ofNat ('0'.toNat + n) else Char.ofNat ('a'.toNat + (n - 10))

end ApiContract.Text
