import ApiContract.Text.Ascii

/-!
# Base64

Four characters for three bytes, with the last group filled up by equals signs. Only the canonical
text of a sequence of bytes is read: the padding is complete and unused bits are zero.
-/

namespace ApiContract.Base64

/-- The two characters that the alphabets disagree on. -/
structure Alphabet where
  sixtyTwo : Char
  sixtyThree : Char

def Alphabet.standard : Alphabet := ⟨'+', '/'⟩

def Alphabet.urlSafe : Alphabet := ⟨'-', '_'⟩

/-- The character of a number below 64. -/
def Alphabet.symbol (a : Alphabet) (n : Nat) : Char :=
  if n < 26 then Char.ofNat ('A'.toNat + n)
  else if n < 52 then Char.ofNat ('a'.toNat + (n - 26))
  else if n < 62 then Char.ofNat ('0'.toNat + (n - 52))
  else if n = 62 then a.sixtyTwo
  else a.sixtyThree

/-- The number that a character stands for. -/
def Alphabet.value? (a : Alphabet) (c : Char) : Option Nat :=
  if 'A' ≤ c && c ≤ 'Z' then some (c.toNat - 'A'.toNat)
  else if 'a' ≤ c && c ≤ 'z' then some (c.toNat - 'a'.toNat + 26)
  else if '0' ≤ c && c ≤ '9' then some (c.toNat - '0'.toNat + 52)
  else if c = a.sixtyTwo then some 62
  else if c = a.sixtyThree then some 63
  else none

/-- The text of a sequence of bytes. -/
def encode (a : Alphabet) : List UInt8 → List Char
  | [] => []
  | [x] =>
    let n := x.toNat * 16
    [a.symbol (n / 64), a.symbol (n % 64), '=', '=']
  | [x, y] =>
    let n := (x.toNat * 256 + y.toNat) * 4
    [a.symbol (n / 4096), a.symbol (n / 64 % 64), a.symbol (n % 64), '=']
  | x :: y :: z :: rest =>
    let n := (x.toNat * 256 + y.toNat) * 256 + z.toNat
    a.symbol (n / 262144) :: a.symbol (n / 4096 % 64) :: a.symbol (n / 64 % 64) ::
      a.symbol (n % 64) :: encode a rest

/-- The bytes of a canonical text. -/
def decode? (a : Alphabet) : List Char → Option (List UInt8)
  | [] => some []
  | [p, q, '=', '='] => do
    let i ← a.value? p
    let j ← a.value? q
    if j % 16 = 0 then some [.ofNat (i * 4 + j / 16)] else none
  | [p, q, r, '='] => do
    let i ← a.value? p
    let j ← a.value? q
    let k ← a.value? r
    if k % 4 = 0 then some [.ofNat (i * 4 + j / 16), .ofNat (j % 16 * 16 + k / 4)] else none
  | p :: q :: r :: s :: rest => do
    let i ← a.value? p
    let j ← a.value? q
    let k ← a.value? r
    let l ← a.value? s
    let bytes ← decode? a rest
    some (.ofNat (i * 4 + j / 16) :: .ofNat (j % 16 * 16 + k / 4) ::
      .ofNat (k % 4 * 64 + l) :: bytes)
  | _ => none

end ApiContract.Base64
