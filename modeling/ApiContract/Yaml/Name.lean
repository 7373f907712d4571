import ApiContract.Text.Ascii
import ApiContract.Text.Utf8
import ApiContract.Yaml.Cursor
import ApiContract.Yaml.Token

/-!
# Anchors, tags and directives

The names that nodes and documents bear: anchors and their aliases, tags, and the directives in
front of a document that say what tags mean.
-/

namespace ApiContract.Yaml

namespace Name

/-- Reads the name of an anchor or an alias behind its sign. -/
def anchor? (cursor : Cursor) : Option (String × Cursor) :=
  let (name, cursor) := cursor.takeWhile isNameCharacter
  let mayFollow (c : Char) : Bool := "?:,]%@`".toList.contains c || c.toNat == 0x7D
  if !name.isEmpty && (endsWord cursor.peek? || cursor.peek?.any mayFollow) then
    some (String.ofList name, cursor)
  else none

/-- The characters of a tag; a verbatim one may hold some more. -/
def isTagCharacter (isVerbatim : Bool) (c : Char) : Bool :=
  isNameCharacter c || ";/?:@&=+$.%!~*'()".toList.contains c ||
    (isVerbatim && (c == ',' || c == '[' || c == ']'))

/-- How many bytes a character takes whose first byte is given. -/
def width? (b : UInt8) : Option Nat :=
  if b < 0x80 then some 1
  else if b < 0xC0 then none
  else if b < 0xE0 then some 2
  else if b < 0xF0 then some 3
  else if b < 0xF8 then some 4
  else none

/-- The bytes of a text in which a percent sign and two digits stand for a byte. -/
def unescapedBytes? : List Char → Option (List UInt8)
  | [] => some []
  | '%' :: high :: low :: rest => do
    let h ← Text.hexValue? high
    let l ← Text.hexValue? low
    let bytes ← unescapedBytes? rest
    some (.ofNat (16 * h + l) :: bytes)
  | '%' :: _ => none
  | c :: rest => (unescapedBytes? rest).map (Utf8.encodeChar c ++ ·)

/-- The characters of a tag, of which there has to be one unless `mayBeEmpty`. -/
def tagText? (isVerbatim mayBeEmpty : Bool) (cursor : Cursor) : Option (String × Cursor) := do
  let (written, cursor) := cursor.takeWhile (isTagCharacter isVerbatim)
  if written.isEmpty && !mayBeEmpty then none
  else
    let bytes ← unescapedBytes? written
    match Utf8.decode bytes with
    | .ok text => some (String.ofList text, cursor)
    | .error _ => none

/-- A handle: an exclamation mark, or a name between two. -/
def handle (cursor : Cursor) : List Char × Cursor :=
  let (name, cursor) := cursor.advance.takeWhile isNameCharacter
  if cursor.peek? == some '!' then ('!' :: name ++ ['!'], cursor.advance)
  else ('!' :: name, cursor)

/-- Reads a tag at its exclamation mark: its handle and what follows it. -/
def tag? (cursor : Cursor) : Option (Token × Cursor) := do
  let (token, cursor) ←
    if cursor.ahead? 1 == some '<' then do
      let (text, cursor) ← tagText? true false (cursor.skip 2)
      if cursor.peek? == some '>' then some (Token.tag "" text, cursor.advance) else none
    else
      let (handle, rest) := handle cursor
      if 1 < handle.length && handle.getLast? == some '!' then do
        let (text, cursor) ← tagText? false false rest
        some (Token.tag (String.ofList handle) text, cursor)
      else do
        let (text, cursor) ← tagText? false true cursor.advance
        some (if text.isEmpty then Token.tag "" "!" else Token.tag "!" text, cursor)
  some (token, cursor)

end Name

namespace Directive

def isDigit (c : Char) : Bool := '0' ≤ c && c ≤ '9'

/-- A part of a version number. -/
def number? (cursor : Cursor) : Option (Nat × Cursor) :=
  let (digits, cursor) := cursor.takeWhile isDigit
  if digits.isEmpty || 9 < digits.length then none
  else some (digits.foldl (fun n c => 10 * n + (c.toNat - '0'.toNat)) 0, cursor)

def version? (cursor : Cursor) : Option (Token × Cursor) := do
  let (major, cursor) ← number? cursor
  if cursor.peek? == some '.' then
    let (minor, cursor) ← number? cursor.advance
    some (.version major minor, cursor)
  else none

/-- A handle and the text that it stands for. -/
def handle? (cursor : Cursor) : Option (Token × Cursor) := do
  if cursor.peek? != some '!' then none
  else
    let (name, cursor) := Name.handle cursor
    if name.getLast? != some '!' || !cursor.peek?.any isSpaceOrTab then none
    else
      let (text, cursor) ← Name.tagText? true false (cursor.dropWhile isSpaceOrTab)
      if endsWord cursor.peek? then some (.handle (String.ofList name) text, cursor) else none

/-- Reads a directive behind its percent sign, up to the end of its line. -/
def read? (cursor : Cursor) : Option (Token × Cursor) := do
  let (name, cursor) := cursor.takeWhile isNameCharacter
  if !endsWord cursor.peek? then none
  else
    let body := cursor.dropWhile isSpaceOrTab
    let (token, cursor) ←
      match String.ofList name with
      | "YAML" => version? body
      | "TAG" => handle? body
      | _ => none
    let cursor := cursor.dropWhile isSpaceOrTab
    let cursor :=
      if cursor.peek? == some '#' then cursor.dropWhile (!isLineBreak ·) else cursor
    if endsLine cursor.peek? then some (token, cursor.advance) else none

end Directive

end ApiContract.Yaml
