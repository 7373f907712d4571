import ApiContract.Text.Ascii
import ApiContract.Yaml.Cursor

/-!
# Texts in YAML

The four ways of writing a text: plain, in single or double quotes, and as a block of lines. Words
of a plain or quoted text are separated by gaps; a gap with one line break counts as a space, and
one with more as the breaks behind the first.
-/

namespace ApiContract.Yaml

/-- What stands between two words. -/
inductive Gap where
  | blanks (run : List Char)
  /-- Line breaks; the first is missing if it was escaped. -/
  | breaks (first? : Option Char) (more : List Char)

namespace Gap

/-- What a gap contributes to a text. -/
def text : Gap → List Char
  | .blanks run => run
  | .breaks (some '\n') [] => [' ']
  | .breaks (some '\n') more => more
  | .breaks (some c) more => c :: more
  | .breaks none more => more

def hasBreak : Gap → Bool
  | .blanks _ => false
  | .breaks .. => true

/-- A gap with one more character behind it: blanks count only in front of the first break. -/
def add (gap : Gap) (c : Char) : Gap :=
  match gap, isLineBreak c with
  | .blanks run, false => .blanks (run ++ [c])
  | .blanks _, true => .breaks (some (normalBreak c)) []
  | .breaks first? more, false => .breaks first? more
  | .breaks first? more, true => .breaks first? (more ++ [normalBreak c])

/-- Reads a gap. In front of column `indent` of a new line, a tab is refused. -/
def read (indent : Nat) (gap : Gap) (cursor : Cursor) : Option (Gap × Cursor) :=
  match _ : cursor.text with
  | [] => some (gap, cursor)
  | c :: _ =>
    if isSpaceOrTab c || isLineBreak c then
      if c == '\t' && gap.hasBreak && cursor.column < indent then none
      else read indent (gap.add c) cursor.advance
    else some (gap, cursor)
termination_by cursor.text.length
decreasing_by exact Cursor.length_advance_lt ‹_›

end Gap

namespace Plain

/-- The characters that structure a collection in brackets or braces. -/
def isFlowIndicator (c : Char) : Bool :=
  c == ',' || c == '[' || c == ']' || c.toNat == 0x7B || c.toNat == 0x7D

/-- Reads a word of a plain text. Inside brackets, a colon in front of a structuring character is
refused. -/
def word (isFlow : Bool) : List Char → Option (List Char)
  | [] => some []
  | c :: rest =>
    let refuses (next : Char) : Bool := isFlowIndicator next || next == '?'
    if isSpaceOrTab c || isLineBreak c then some []
    else if isFlow && c == ':' && rest.head?.any refuses then none
    else if c == ':' && endsWord rest.head? then some []
    else if isFlow && isFlowIndicator c then some []
    else (word isFlow rest).map (c :: ·)

/-- The words of a plain text with the gaps between them. The result tells whether the text ended
behind a line break. -/
def read (isFlow : Bool) (indent : Nat) :
    (fuel : Nat) → (done : List Char) → Gap → Cursor → Option (List Char × Bool × Cursor)
  | 0, _, _, _ => none
  | fuel + 1, done, gap, cursor =>
    if cursor.isAtDocumentMark || cursor.peek? == some '#' then
      some (done, gap.hasBreak, cursor)
    else
      match word isFlow cursor.text with
      | none => none
      | some [] => some (done, gap.hasBreak, cursor)
      | some letters =>
        let done := done ++ gap.text ++ letters
        match Gap.read indent (.blanks []) (cursor.skip letters.length) with
        | none => none
        | some (gap, cursor) =>
          if !isFlow && gap.hasBreak && cursor.column < indent then some (done, true, cursor)
          else read isFlow indent fuel done gap cursor

end Plain

namespace Quoted

/-- The character that an escape of one letter stands for. -/
def simpleEscape? (c : Char) : Option Char :=
  match c with
  | '0' => some (Char.ofNat 0)
  | 'a' => some (Char.ofNat 7)
  | 'b' => some (Char.ofNat 8)
  | 't' => some '\t'
  | '\t' => some '\t'
  | 'n' => some '\n'
  | 'v' => some (Char.ofNat 11)
  | 'f' => some (Char.ofNat 12)
  | 'r' => some '\r'
  | 'e' => some (Char.ofNat 27)
  | ' ' => some ' '
  | '"' => some '"'
  | '/' => some '/'
  | '\\' => some '\\'
  | 'N' => some (Char.ofNat 0x85)
  | '_' => some (Char.ofNat 0xA0)
  | 'L' => some (Char.ofNat 0x2028)
  | 'P' => some (Char.ofNat 0x2029)
  | _ => none

/-- How many hexadecimal digits follow the letter of an escape. -/
def escapeDigits? (c : Char) : Option Nat :=
  match c with
  | 'x' => some 2
  | 'u' => some 4
  | 'U' => some 8
  | _ => none

/-- The character of a code point. -/
def charOfCode? (n : Nat) : Option Char := if n.isValidChar then some (Char.ofNat n) else none

/-- The character of an escape behind its backslash, and how many characters the escape takes. -/
def escape? (text : List Char) : Option (Char × Nat) :=
  match text with
  | [] => none
  | c :: rest =>
    match simpleEscape? c with
    | some escaped => some (escaped, 1)
    | none => do
      let count ← escapeDigits? c
      let digits := rest.take count
      if digits.length < count then none
      else
        let code ← Text.hexNumber? digits
        let escaped ← charOfCode? code
        some (escaped, count + 1)

/-- Whether a character of a quoted text stands for itself. -/
def isOrdinary (isSingle : Bool) (c : Char) : Bool :=
  !isSpaceOrTab c && !isLineBreak c && (if isSingle then c != '\'' else c != '"' && c != '\\')

/-- Reads a quoted text behind its opening quote, up to behind its closing one. -/
def read (isSingle : Bool) :
    (fuel : Nat) → (done : List Char) → Cursor → Option (List Char × Cursor)
  | 0, _, _ => none
  | fuel + 1, done, cursor =>
    if cursor.isAtDocumentMark then none
    else
      let (letters, cursor) := cursor.takeWhile (isOrdinary isSingle)
      let done := done ++ letters
      let fill (gap : Gap) (cursor : Cursor) : Option (List Char × Cursor) := do
        let (gap, cursor) ← Gap.read 0 gap cursor
        read isSingle fuel (done ++ gap.text) cursor
      match cursor.text with
      | [] => none
      | c :: rest =>
        if isSpaceOrTab c || isLineBreak c then fill (.blanks []) cursor
        else if isSingle then
          if rest.head? == some '\'' then read isSingle fuel (done ++ ['\'']) (cursor.skip 2)
          else some (done, cursor.advance)
        else if c == '"' then some (done, cursor.advance)
        else
          match rest with
          | [] => none
          | next :: _ =>
            if isLineBreak next then fill (.breaks none []) cursor.advance.advance
            else do
              let (escaped, count) ← escape? rest
              read isSingle fuel (done ++ [escaped]) (cursor.skip (count + 1))

end Quoted

namespace Block

/-- What the header of a block says: which final line breaks are kept, and how far its lines are
indented. -/
structure Header where
  /-- Whether the break of the last line is kept. -/
  keepsLast : Bool := true
  /-- Whether all breaks behind the last line are kept. -/
  keepsAll : Bool := false
  indent? : Option Nat := none

def Header.withChomping (header : Header) (c : Char) : Header :=
  if c == '+' then { header with keepsAll := true } else { header with keepsLast := false }

/-- Reads the indicators of a header, in either order. -/
def header? (cursor : Cursor) : Option (Header × Cursor) :=
  let isChomping (c : Char) : Bool := c == '+' || c == '-'
  let isDigit (c : Char) : Bool := '0' ≤ c && c ≤ '9'
  let digit? (c : Char) : Option Nat := if c == '0' then none else some (c.toNat - '0'.toNat)
  match cursor.text with
  | a :: rest =>
    if isChomping a then
      let header := Header.withChomping {} a
      match rest with
      | b :: _ =>
        if isDigit b then (digit? b).map fun n => ({ header with indent? := some n }, cursor.skip 2)
        else some (header, cursor.advance)
      | [] => some (header, cursor.advance)
    else if isDigit a then
      (digit? a).map fun n =>
        let header : Header := { indent? := some n }
        match rest with
        | b :: _ =>
          if isChomping b then (header.withChomping b, cursor.skip 2) else (header, cursor.advance)
        | [] => (header, cursor.advance)
    else some ({}, cursor)
  | [] => some ({}, cursor)

/-- Skips the rest of a header line, which may hold a comment only. -/
def endOfHeader? (cursor : Cursor) : Option Cursor :=
  let cursor := cursor.dropWhile isSpaceOrTab
  let cursor :=
    if cursor.peek? == some '#' then cursor.dropWhile (!isLineBreak ·) else cursor
  if endsLine cursor.peek? then some cursor.advance else none

/-- Skips indentation and empty lines. Gives the breaks, the deepest column met, and the cursor.
Without a known indentation (zero), all spaces are indentation. -/
def emptyLines (indent : Nat) (breaks : List Char) (deepest : Nat) (cursor : Cursor) :
    Option (List Char × Nat × Cursor) :=
  let deepest := max deepest cursor.column
  let isIndentation := indent == 0 || cursor.column < indent
  match _ : cursor.text with
  | [] => some (breaks, deepest, cursor)
  | c :: _ =>
    if isIndentation && c == ' ' then emptyLines indent breaks deepest cursor.advance
    else if isIndentation && c == '\t' then none
    else if isLineBreak c then
      emptyLines indent (breaks ++ [normalBreak c]) deepest cursor.advance
    else some (breaks, deepest, cursor)
termination_by cursor.text.length
decreasing_by all_goals exact Cursor.length_advance_lt ‹_›

/-- The lines of a block. `last` is the break behind the line read last, `followsBlank` whether that
line began with a blank, and `empty` the breaks of the empty lines behind it. -/
def lines (isLiteral : Bool) (indent : Nat) :
    (fuel : Nat) → (done last : List Char) → (followsBlank : Bool) → (empty : List Char) → Cursor →
      Option (List Char × List Char × List Char × Cursor)
  | 0, _, _, _, _, _ => none
  | fuel + 1, done, last, followsBlank, empty, cursor =>
    if cursor.column == indent && cursor.peek?.isSome then
      let startsBlank := cursor.peek?.any isSpaceOrTab
      let isFolded := !isLiteral && last == ['\n'] && !followsBlank && !startsBlank
      let joint :=
        if isFolded then (if empty.isEmpty then [' '] else []) else last
      let (line, cursor) := cursor.takeWhile (!isLineBreak ·)
      let ending := (cursor.peek?.map normalBreak).toList
      match emptyLines indent [] 0 cursor.advance with
      | none => none
      | some (breaks, _, cursor) =>
        lines isLiteral indent fuel (done ++ joint ++ empty ++ line) ending startsBlank breaks
          cursor
    else some (done, last, empty, cursor)

/-- Reads a block behind its indicator; `parent` is the indentation of the block around it. -/
def read (isLiteral : Bool) (parent : Int) (cursor : Cursor) : Option (List Char × Cursor) := do
  let (header, cursor) ← header? cursor
  let cursor ← endOfHeader? cursor
  let known := (header.indent?.map fun n => (max parent 0).toNat + n).getD 0
  let (empty, deepest, cursor) ← emptyLines known [] 0 cursor
  let indent := if known == 0 then max deepest (max (parent + 1) 1).toNat else known
  let (text, last, empty, cursor) ←
    lines isLiteral indent (cursor.text.length + 1) [] [] false empty cursor
  let text := if header.keepsLast then text ++ last else text
  some (if header.keepsAll then text ++ empty else text, cursor)

end Block

end ApiContract.Yaml
