/-!
# Places in a text

YAML gives meaning to lines and columns. A cursor is the rest of a text together with the place
where it starts; a line ends at any of five characters, of which a carriage return and a line feed
in a row are one.
-/

namespace ApiContract.Yaml

/-- The characters that end a line. -/
def isLineBreak (c : Char) : Bool :=
  c == '\n' || c == '\r' || c.toNat == 0x85 || c.toNat == 0x2028 || c.toNat == 0x2029

def isSpaceOrTab (c : Char) : Bool := c == ' ' || c == '\t'

/-- Whether a word ends in front of what follows: a blank, a line break, or nothing. -/
def endsWord (next? : Option Char) : Bool :=
  match next? with
  | none => true
  | some c => isSpaceOrTab c || isLineBreak c

/-- Whether a line ends in front of what follows. -/
def endsLine (next? : Option Char) : Bool :=
  match next? with
  | none => true
  | some c => isLineBreak c

/-- The letters, digits and signs that names are made of. -/
def isNameCharacter (c : Char) : Bool :=
  ('0' ≤ c && c ≤ '9') || ('A' ≤ c && c ≤ 'Z') || ('a' ≤ c && c ≤ 'z') || c == '_' || c == '-'

/-- A line break as it counts in a text: a line feed, unless it separates lines or paragraphs. -/
def normalBreak (c : Char) : Char :=
  if c.toNat == 0x2028 || c.toNat == 0x2029 then c else '\n'

/-- The characters that a document may hold at all. -/
def isAllowed (c : Char) : Bool :=
  let n := c.toNat
  n == 0x09 || n == 0x0A || n == 0x0D || (0x20 ≤ n && n ≤ 0x7E) || n == 0x85 ||
    (0xA0 ≤ n && n ≤ 0xD7FF) || (0xE000 ≤ n && n ≤ 0xFFFD) || 0x10000 ≤ n

structure Cursor where
  text : List Char
  index : Nat := 0
  line : Nat := 0
  column : Nat := 0

namespace Cursor

def peek? (cursor : Cursor) : Option Char := cursor.text.head?

/-- The character that many places ahead. -/
def ahead? (cursor : Cursor) (count : Nat) : Option Char := (cursor.text.drop count).head?

/-- Behind the next character, or behind the next line break. -/
def advance (cursor : Cursor) : Cursor :=
  match cursor.text with
  | [] => cursor
  | '\r' :: '\n' :: rest => ⟨rest, cursor.index + 2, cursor.line + 1, 0⟩
  | c :: rest =>
    if isLineBreak c then ⟨rest, cursor.index + 1, cursor.line + 1, 0⟩
    else ⟨rest, cursor.index + 1, cursor.line, cursor.column + 1⟩

theorem length_advance_lt {cursor : Cursor} {c : Char} {rest : List Char}
    (h : cursor.text = c :: rest) : cursor.advance.text.length < cursor.text.length := by
  unfold advance
  split
  · simp_all
  · rename_i hcrlf
    simp only [hcrlf, List.length_cons]
    omega
  · rename_i htext
    simp only [htext, List.length_cons]
    split <;> simp

/-- Behind that many characters. -/
def skip (cursor : Cursor) : Nat → Cursor
  | 0 => cursor
  | count + 1 => cursor.advance.skip count

/-- The characters in front of the first one that does not belong, and the cursor there. -/
def takeWhile (belongs : Char → Bool) (cursor : Cursor) : List Char × Cursor :=
  let taken := cursor.text.takeWhile belongs
  (taken, cursor.skip taken.length)

def dropWhile (belongs : Char → Bool) (cursor : Cursor) : Cursor := (cursor.takeWhile belongs).2

/-- Whether three marks stand at the start of a line, as a word of their own. -/
def isAtMark (cursor : Cursor) (mark : Char) : Bool :=
  cursor.column == 0 && cursor.text.take 3 == [mark, mark, mark] && endsWord (cursor.ahead? 3)

/-- Whether a document begins or ends here. -/
def isAtDocumentMark (cursor : Cursor) : Bool := cursor.isAtMark '-' || cursor.isAtMark '.'

end Cursor

end ApiContract.Yaml
