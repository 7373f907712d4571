import ApiContract.Yaml.Name
import ApiContract.Yaml.Scalar

/-!
# From text to tokens

Two things make the tokens of YAML depend on their surroundings. Indentation opens and closes
blocks, and the key of a mapping is known only by the colon behind it. So the lexer remembers the
indentation of the open blocks and, for every level of brackets, the place where a key may have
begun; a key has to end on its line within 1024 characters.
-/

namespace ApiContract.Yaml

/-- A place where the key of a mapping may have begun. -/
structure KeyPlace where
  /-- Whether the text makes no sense unless a key began here. -/
  required : Bool
  /-- How many tokens stand in front of the place. -/
  position : Nat
  cursor : Cursor

structure Lexer where
  cursor : Cursor
  /-- The tokens so far, the latest first. -/
  tokens : List Token := []
  count : Nat := 0
  /-- Whether a key may begin here. -/
  allowsKey : Bool := true
  key? : Option KeyPlace := none
  /-- The places of keys outside of the brackets that are open, innermost first. -/
  outerKeys : List (Option KeyPlace) := []
  /-- The column of the innermost block. -/
  indent : Int := -1
  outerIndents : List Int := []

/-- A step of the lexer, which may find the text malformed. -/
abbrev Lexing := StateT Lexer Option

namespace Lexer

def isFlow (lexer : Lexer) : Bool := !lexer.outerKeys.isEmpty

def push (lexer : Lexer) (token : Token) : Lexer :=
  { lexer with tokens := token :: lexer.tokens, count := lexer.count + 1 }

/-- Adds a token in front of those behind a position. -/
def insertAt (lexer : Lexer) (position : Nat) (token : Token) : Lexer :=
  let (later, earlier) := lexer.tokens.splitAt (lexer.count - position)
  { lexer with tokens := later ++ token :: earlier, count := lexer.count + 1 }

/-- Goes on behind a number of characters. -/
def moveBy (lexer : Lexer) (count : Nat) : Lexer :=
  { lexer with cursor := lexer.cursor.skip count }

/-- Ends the blocks that are indented more than a column. -/
def closeBlocks (column : Int) : (indents : List Int) → Lexer → Lexer
  | [], lexer => lexer
  | outer :: rest, lexer =>
    if column < lexer.indent then
      closeBlocks column rest
        { lexer.push .blockEnd with indent := outer, outerIndents := rest }
    else lexer

/-- Ends the blocks that are indented more than a column, outside of brackets. -/
def unindent (lexer : Lexer) (column : Int) : Lexer :=
  if lexer.isFlow then lexer else closeBlocks column lexer.outerIndents lexer

/-- Begins a block at a column that is indented more than the block around it. -/
def indentTo (lexer : Lexer) (column : Nat) (position : Nat) (token : Token) : Lexer :=
  if !lexer.isFlow && lexer.indent < column then
    { lexer.insertAt position token with
      indent := column, outerIndents := lexer.indent :: lexer.outerIndents }
  else lexer

/-- Skips blanks, comments and line breaks. Outside of brackets, a tab may not stand where a key may
begin, and a key may begin on every new line. -/
def skipBlanks (isFlow allowsKey inComment : Bool) (cursor : Cursor) : Cursor × Bool :=
  match _ : cursor.text with
  | [] => (cursor, allowsKey)
  | c :: _ =>
    if isLineBreak c then
      skipBlanks isFlow (allowsKey || !isFlow) false cursor.advance
    else if inComment then skipBlanks isFlow allowsKey true cursor.advance
    else if c == '#' then skipBlanks isFlow allowsKey true cursor.advance
    else if c == ' ' || (c == '\t' && (isFlow || !allowsKey)) then
      skipBlanks isFlow allowsKey false cursor.advance
    else (cursor, allowsKey)
termination_by cursor.text.length
decreasing_by all_goals exact Cursor.length_advance_lt ‹_›

/-- Gives up the place of a key; a required one may not be given up. -/
def dropKey (key? : Option KeyPlace) : Option (Option KeyPlace) :=
  match key? with
  | some key => if key.required then none else some none
  | none => some none

/-- Gives up the place of a key that is too far away. -/
def dropStale (cursor : Cursor) (key? : Option KeyPlace) : Option (Option KeyPlace) :=
  match key? with
  | some key =>
    if key.cursor.line < cursor.line || key.cursor.index + 1024 < cursor.index then dropKey key?
    else some key?
  | none => some none

end Lexer

namespace Lexing

open Lexer

def giveUpKey : Lexing Unit := do
  let key? ← dropKey (← get).key?
  modify fun lexer => { lexer with key? }

def setAllowsKey (allowsKey : Bool) : Lexing Unit := modify fun lexer => { lexer with allowsKey }

/-- Remembers that a key may begin at the next token. -/
def markKey : Lexing Unit := do
  let lexer ← get
  if lexer.allowsKey then
    giveUpKey
    let required := !lexer.isFlow && lexer.indent == lexer.cursor.column
    modify fun lexer =>
      { lexer with key? := some ⟨required, lexer.count, lexer.cursor⟩ }

/-- Adds a token that takes a number of characters. -/
def take (token : Token) (length : Nat) : Lexing Unit :=
  modify fun lexer => (lexer.push token).moveBy length

/-- Adds a token that ends at a cursor. -/
def takeTo (token : Token) (cursor : Cursor) : Lexing Unit :=
  modify fun lexer => { lexer.push token with cursor }

/-- Ends all blocks. -/
def endBlocks : Lexing Unit := do
  modify fun lexer => lexer.unindent (-1)
  giveUpKey
  setAllowsKey false

def directive : Lexing Unit := do
  endBlocks
  let (token, cursor) ← Directive.read? (← get).cursor.advance
  takeTo token cursor

def documentMark (token : Token) : Lexing Unit := do
  endBlocks
  take token 3

def flowStart (token : Token) : Lexing Unit := do
  markKey
  modify fun lexer => { lexer with key? := none, outerKeys := lexer.key? :: lexer.outerKeys }
  setAllowsKey true
  take token 1

def flowEnd (token : Token) : Lexing Unit := do
  giveUpKey
  modify fun lexer =>
    match lexer.outerKeys with
    | [] => lexer
    | key? :: outerKeys => { lexer with key?, outerKeys }
  setAllowsKey false
  take token 1

def flowEntry : Lexing Unit := do
  giveUpKey
  setAllowsKey true
  take .flowEntry 1

/-- Begins a block for an entry at the next character, where an entry may stand. -/
def beginBlock (token : Token) : Lexing Unit := do
  let lexer ← get
  if !lexer.isFlow then
    if !lexer.allowsKey then failure
    set (lexer.indentTo lexer.cursor.column lexer.count token)

def blockEntry : Lexing Unit := do
  beginBlock .blockSequenceStart
  giveUpKey
  setAllowsKey true
  take .blockEntry 1

def explicitKey : Lexing Unit := do
  beginBlock .blockMappingStart
  giveUpKey
  setAllowsKey (!(← get).isFlow)
  take .key 1

/-- A colon, which makes a key of what stands behind the remembered place. -/
def value : Lexing Unit := do
  match (← get).key? with
  | some key =>
    modify fun lexer =>
      { (lexer.insertAt key.position .key).indentTo key.cursor.column key.position
          .blockMappingStart with key? := none }
    setAllowsKey false
  | none =>
    beginBlock .blockMappingStart
    setAllowsKey (!(← get).isFlow)
  take .value 1

def anchor (token : String → Token) : Lexing Unit := do
  markKey
  setAllowsKey false
  let (name, cursor) ← Name.anchor? (← get).cursor.advance
  takeTo (token name) cursor

def tag : Lexing Unit := do
  markKey
  setAllowsKey false
  let lexer ← get
  let (token, cursor) ← Name.tag? lexer.cursor
  if endsWord cursor.peek? || (lexer.isFlow && cursor.peek? == some ',') then takeTo token cursor
  else failure

def block (isLiteral : Bool) : Lexing Unit := do
  giveUpKey
  setAllowsKey true
  let lexer ← get
  let (text, cursor) ← Block.read isLiteral lexer.indent lexer.cursor.advance
  takeTo (.scalar (String.ofList text) false) cursor

def quoted (isSingle : Bool) : Lexing Unit := do
  markKey
  setAllowsKey false
  let cursor := (← get).cursor
  let (text, cursor) ← Quoted.read isSingle (cursor.text.length + 1) [] cursor.advance
  takeTo (.scalar (String.ofList text) false) cursor

def plain : Lexing Unit := do
  markKey
  setAllowsKey false
  let lexer ← get
  let cursor := lexer.cursor
  let (text, endsInBreak, cursor) ←
    Plain.read lexer.isFlow (lexer.indent + 1).toNat (cursor.text.length + 1) [] (.blanks []) cursor
  takeTo (.scalar (String.ofList text) true) cursor
  if endsInBreak then setAllowsKey true

/-- Whether a plain text may begin with a character in front of another. -/
def startsPlain (isFlow : Bool) (c : Char) (next? : Option Char) : Bool :=
  let isIndicator :=
    "-?:,[]#&*!|>'\"%@`".toList.contains c || c.toNat == 0x7B || c.toNat == 0x7D
  (!isIndicator && !isSpaceOrTab c) || (c == '-' && !next?.any isSpaceOrTab) ||
    (!isFlow && (c == '?' || c == ':') && !endsWord next?)

/-- The end of the text. -/
def streamEnd : Lexing Unit := do
  endBlocks
  take .streamEnd 0

/-- Reads the next token. -/
def next : Lexing Unit := do
  let lexer ← get
  let (cursor, allowsKey) := skipBlanks lexer.isFlow lexer.allowsKey false lexer.cursor
  let key? ← dropStale cursor lexer.key?
  let outerKeys ← (lexer.outerKeys.mapM (dropStale cursor) : Option (List (Option KeyPlace)))
  set ({ lexer with cursor, allowsKey, key?, outerKeys }.unindent cursor.column)
  let isFlow := lexer.isFlow
  let isIndicator := isFlow || endsWord (cursor.ahead? 1)
  match cursor.peek? with
  | none => streamEnd
  | some c =>
    if c == '%' && cursor.column == 0 then directive
    else if cursor.isAtMark '-' then documentMark .documentStart
    else if cursor.isAtMark '.' then documentMark .documentEnd
    else if c == '[' then flowStart .flowSequenceStart
    else if c.toNat == 0x7B then flowStart .flowMappingStart
    else if c == ']' then flowEnd .flowSequenceEnd
    else if c.toNat == 0x7D then flowEnd .flowMappingEnd
    else if c == ',' then flowEntry
    else if c == '-' && endsWord (cursor.ahead? 1) then blockEntry
    else if c == '?' && isIndicator then explicitKey
    else if c == ':' && isIndicator then value
    else if c == '*' then anchor .alias
    else if c == '&' then anchor .anchor
    else if c == '!' then tag
    else if c == '|' && !isFlow then block true
    else if c == '>' && !isFlow then block false
    else if c == '\'' then quoted true
    else if c == '"' then quoted false
    else if startsPlain isFlow c (cursor.ahead? 1) then plain
    else failure

/-- Reads tokens up to the end of the text. -/
def all : (fuel : Nat) → Lexing Unit
  | 0 => failure
  | fuel + 1 => do
    next
    match (← get).tokens with
    | .streamEnd :: _ => return
    | _ => all fuel

end Lexing

/-- Where a text begins. The mark of a byte order in front is skipped, but it takes up a column. -/
def Cursor.ofText (text : List Char) : Cursor :=
  let start : Cursor := { text }
  if start.peek?.any (·.toNat == 0xFEFF) then start.advance else start

/-- The tokens of a text. -/
def Token.ofText? (text : List Char) : Option (List Token) :=
  if !text.all isAllowed then none
  else
    let lexer : Lexer := { cursor := .ofText text }
    ((Lexing.all (text.length + 1)).run lexer).map fun (_, lexer) => lexer.tokens.reverse

end ApiContract.Yaml
