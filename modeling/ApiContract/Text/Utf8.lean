/-!
# UTF-8

`Utf8.encode` writes characters as bytes. Reading proceeds by pieces: a piece is one character, or
the bytes of a sequence that breaks off, which are as many as could still have begun a character.
`Utf8.decode` reports the first such sequence and `Utf8.decodeLossy` puts the replacement character
in the place of each.
-/

namespace ApiContract.Utf8

/-- The bytes of one character. -/
def encodeChar (c : Char) : List UInt8 :=
  let n := c.toNat
  if n < 0x80 then
    [.ofNat n]
  else if n < 0x800 then
    [.ofNat (0xC0 + n / 64), .ofNat (0x80 + n % 64)]
  else if n < 0x10000 then
    [.ofNat (0xE0 + n / 4096), .ofNat (0x80 + n / 64 % 64), .ofNat (0x80 + n % 64)]
  else
    [.ofNat (0xF0 + n / 262144), .ofNat (0x80 + n / 4096 % 64), .ofNat (0x80 + n / 64 % 64),
      .ofNat (0x80 + n % 64)]

/-- The bytes of a text. -/
def encode (text : List Char) : List UInt8 := text.flatMap encodeChar

def encodeString (text : String) : List UInt8 := encode text.toList

/-- How many bytes a text takes. -/
def byteLength (text : List Char) : Nat := (encode text).length

/-- What stands at the front of a sequence of bytes: a character, or `length` bytes that begin none,
with more bytes behind them (`rejected`) or at the end of the sequence (`cut`). -/
inductive Piece where
  | char (c : Char)
  | rejected (length : Nat)
  | cut (length : Nat)
  deriving DecidableEq

def isContinuation (b : UInt8) : Bool := 0x80 ≤ b.toNat && b.toNat < 0xC0

/-- The second bytes that may follow the first byte of a character of three or four bytes. -/
def allowsSecond (first second : UInt8) : Bool :=
  let n := second.toNat
  match first.toNat with
  | 0xE0 => 0xA0 ≤ n && n < 0xC0
  | 0xED => 0x80 ≤ n && n < 0xA0
  | 0xF0 => 0x90 ≤ n && n < 0xC0
  | 0xF4 => 0x80 ≤ n && n < 0x90
  | _ => isContinuation second

/-- What a continuation byte adds to its character. -/
def low (b : UInt8) : Nat := b.toNat - 0x80

/-- The first piece of the bytes `first :: rest`, and the bytes behind it. -/
def next (first : UInt8) (rest : List UInt8) : Piece × List UInt8 :=
  let n := first.toNat
  if n < 0x80 then
    (.char (Char.ofNat n), rest)
  else if n < 0xC2 || 0xF5 ≤ n then
    (.rejected 1, rest)
  else
    match rest with
    | [] => (.cut 1, [])
    | second :: rest₂ =>
      if n < 0xE0 then
        if isContinuation second then
          (.char (Char.ofNat ((n - 0xC0) * 64 + low second)), rest₂)
        else (.rejected 1, rest)
      else if !allowsSecond first second then
        (.rejected 1, rest)
      else
        match rest₂ with
        | [] => (.cut 2, [])
        | third :: rest₃ =>
          if !isContinuation third then
            (.rejected 2, rest₂)
          else if n < 0xF0 then
            (.char (Char.ofNat ((n - 0xE0) * 4096 + low second * 64 + low third)), rest₃)
          else
            match rest₃ with
            | [] => (.cut 3, [])
            | fourth :: rest₄ =>
              if !isContinuation fourth then
                (.rejected 3, rest₃)
              else
                (.char (Char.ofNat
                  ((n - 0xF0) * 262144 + low second * 4096 + low third * 64 + low fourth)), rest₄)

theorem length_next_le (first : UInt8) (rest : List UInt8) :
    (next first rest).2.length ≤ rest.length := by
  unfold next
  dsimp only
  repeat' split
  all_goals simp_all
  all_goals omega

/-- The pieces of a sequence of bytes, in order. -/
def pieces : List UInt8 → List Piece
  | [] => []
  | first :: rest => (next first rest).1 :: pieces (next first rest).2
termination_by bytes => bytes.length
decreasing_by
  have := length_next_le first rest
  simp only [List.length_cons]
  omega

/-- Why bytes are not UTF-8. Each carries the length of the valid bytes in front. -/
inductive Fault where
  | invalid (length index : Nat)
  | incomplete (index : Nat)
  deriving DecidableEq

def Fault.message : Fault → String
  | .invalid length index => s!"invalid utf-8 sequence of {length} bytes from index {index}"
  | .incomplete index => s!"incomplete utf-8 byte sequence from index {index}"

/-- The characters of pieces that are all characters; `index` bytes stand in front of them. -/
def ofPieces (index : Nat) : List Piece → Except Fault (List Char)
  | [] => .ok []
  | .char c :: rest => do
    let text ← ofPieces (index + (encodeChar c).length) rest
    .ok (c :: text)
  | .rejected length :: _ => .error (.invalid length index)
  | .cut _ :: _ => .error (.incomplete index)

/-- The text that bytes encode. -/
def decode (bytes : List UInt8) : Except Fault (List Char) := ofPieces 0 (pieces bytes)

def decodeString (bytes : List UInt8) : Except Fault String := (decode bytes).map String.ofList

/-- The character that stands for bytes which are none. -/
def replacement : Char := Char.ofNat 0xFFFD

def Piece.toChar : Piece → Char
  | .char c => c
  | _ => replacement

/-- The text of bytes, with one replacement character for each sequence that is none. -/
def decodeLossy (bytes : List UInt8) : List Char := (pieces bytes).map Piece.toChar

end ApiContract.Utf8
