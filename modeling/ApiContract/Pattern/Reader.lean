import ApiContract.Number.Numeral
import ApiContract.Pattern.Basic
import ApiContract.Text.Blank
import ApiContract.Text.Split

/-!
# Reading patterns

The syntax of patterns: characters and classes, groups with flags, alternatives, repetition, anchors
and word boundaries. Look-around and back-references do not exist. A text that is no pattern is
refused as a whole.
-/

namespace ApiContract.Pattern

open Unicode (Ranges)

/-- The switches that groups turn on and off. -/
structure Flags where
  ignoreCase : Bool := false
  multiLine : Bool := false
  dotAll : Bool := false
  swapGreed : Bool := false
  unicode : Bool := true
  carriageReturns : Bool := false
  spaced : Bool := false

/-- The state of reading: the rest of the text, the flags in force and the group names in use. -/
structure State where
  rest : List Char
  flags : Flags
  names : List (List Char)

abbrev Reader := StateT State Option

def refuse {α : Type} : Reader α := fun _ => none

def peek? : Reader (Option Char) := do return (← get).rest.head?

def rest : Reader (List Char) := do return (← get).rest

def setRest (text : List Char) : Reader Unit := modify fun state => { state with rest := text }

def skip (count : Nat) : Reader Unit :=
  modify fun state => { state with rest := state.rest.drop count }

def flags : Reader Flags := do return (← get).flags

/-- A text without the blanks and comments in front. -/
def dropSpaced : Nat → List Char → List Char
  | 0, text => text
  | fuel + 1, text =>
    match text with
    | '#' :: behind => dropSpaced fuel (behind.dropWhile (· != '\n'))
    | c :: behind => if Text.isBlank c then dropSpaced fuel behind else text
    | [] => []

/-- Skips blanks and comments where the flags allow them. -/
def skipSpaced : Reader Unit :=
  modify fun state =>
    if state.flags.spaced then
      { state with rest := dropSpaced (state.rest.length + 1) state.rest }
    else state

/-- The next character, taken off. -/
def next : Reader Char := do
  match (← rest) with
  | c :: behind => setRest behind; return c
  | [] => refuse

/-- Takes off a text if it comes next. -/
def accept (expected : List Char) : Reader Bool := do
  match Text.stripStart? expected (← rest) with
  | some behind => setRest behind; return true
  | none => return false

/-! ## Sets of characters -/

def asciiDigits : Ranges := [(0x30, 0x39)]

def asciiBlanks : Ranges := [(9, 13), (0x20, 0x20)]

def asciiWord : Ranges := [(0x30, 0x39), (0x41, 0x5A), (0x5F, 0x5F), (0x61, 0x7A)]

def wordSet (flags : Flags) : Ranges := if flags.unicode then Unicode.wordCharacters else asciiWord

/-- The set of a class of ASCII characters between brackets and colons. -/
def asciiClass? : String → Option Ranges
  | "alnum" => some [(0x30, 0x39), (0x41, 0x5A), (0x61, 0x7A)]
  | "alpha" => some [(0x41, 0x5A), (0x61, 0x7A)]
  | "ascii" => some [(0, 0x7F)]
  | "blank" => some [(9, 9), (0x20, 0x20)]
  | "cntrl" => some [(0, 0x1F), (0x7F, 0x7F)]
  | "digit" => some asciiDigits
  | "graph" => some [(0x21, 0x7E)]
  | "lower" => some [(0x61, 0x7A)]
  | "print" => some [(0x20, 0x7E)]
  | "punct" => some [(0x21, 0x2F), (0x3A, 0x40), (0x5B, 0x60), (0x7B, 0x7E)]
  | "space" => some asciiBlanks
  | "upper" => some [(0x41, 0x5A)]
  | "word" => some asciiWord
  | "xdigit" => some [(0x30, 0x39), (0x41, 0x46), (0x61, 0x66)]
  | _ => none

/-- The ASCII letters of a set in both cases. -/
def foldAscii (set : Ranges) : Ranges :=
  let letters := (List.range 26).flatMap fun n =>
    if set.containsCode (0x41 + n) || set.containsCode (0x61 + n) then
      [(0x41 + n, 0x41 + n), (0x61 + n, 0x61 + n)]
    else []
  set ++ letters

/-- A set with case disregarded, where the flags say so. -/
def foldSet (flags : Flags) (set : Ranges) : Ranges :=
  if !flags.ignoreCase then set
  else if flags.unicode then set.foldCase
  else foldAscii set

/-- A set or its complement. Without the flag for Unicode a set must stay within ASCII. -/
def negateSet (flags : Flags) (negated : Bool) (set : Ranges) : Reader Ranges :=
  let result := if negated then set.complement else set
  if flags.unicode || result.all (fun range => range.2 < 0x80 || range.2 < range.1) then
    return result
  else refuse

/-! ## Escapes -/

/-- What an escape sequence stands for. -/
inductive Escape where
  | literal (c : Char)
  | set (ranges : Ranges)
  | assertion (condition : Assertion)

/-- The characters with a meaning of their own. -/
def isSyntax (c : Char) : Bool :=
  "\\.+*?()|[]^$#&-~".toList.contains c || c.toNat == 0x7B || c.toNat == 0x7D

/-- The other characters that a backslash may precede for themselves. -/
def mayBeEscaped (c : Char) : Bool :=
  c.toNat < 128 && !Text.isLetter c && !Numeral.isDigit c && c != '<' && c != '>'

/-- The character with a code point, if there is one. -/
def charOfCode? (n : Nat) : Option Char :=
  if n < 0xD800 || (0xE000 ≤ n && n ≤ 0x10FFFF) then some (Char.ofNat n) else none

/-- Hexadecimal digits in braces, or exactly `count` of them. -/
def hexadecimal (count : Nat) (isByte : Bool) : Reader Char := do
  skipSpaced
  if (← peek?) == some (Char.ofNat 0x7B) then
    skip 1
    let text ← rest
    let digits := text.takeWhile (· != Char.ofNat 0x7D)
    let flags ← flags
    let digits := if flags.spaced then digits.filter (!Text.isBlank ·) else digits
    if (text.dropWhile (· != Char.ofNat 0x7D)).isEmpty then refuse
    else
      setRest ((text.dropWhile (· != Char.ofNat 0x7D)).drop 1)
      match (Text.hexNumber? digits).bind charOfCode? with
      | some c => return c
      | none => refuse
  else
    let text ← rest
    let digits := text.take count
    if digits.length < count then refuse
    else
      setRest (text.drop count)
      match (Text.hexNumber? digits).bind charOfCode? with
      | some c =>
        if isByte && !(← flags).unicode && 0x80 ≤ c.toNat then refuse else return c
      | none => refuse

/-- The name of a class of characters behind `\p`. -/
def classByName : Reader Ranges := do
  skipSpaced
  let first ← next
  if first == Char.ofNat 0x7B then
    let text ← rest
    let flags ← flags
    let name := text.takeWhile (· != Char.ofNat 0x7D)
    let behind := text.dropWhile (· != Char.ofNat 0x7D)
    if behind.isEmpty then refuse
    else
      setRest (behind.drop 1)
      let name := if flags.spaced then name.filter (!Text.isBlank ·) else name
      let unequal :=
        match Text.splitFirst? '!' name with
        | some (property, '=' :: value) => some (property, value)
        | _ => none
      let found :=
        match unequal with
        | some (property, value) => (Unicode.valued? property value).map Ranges.complement
        | none =>
          match (Text.splitFirst? ':' name).or (Text.splitFirst? '=' name) with
          | some (property, value) => Unicode.valued? property value
          | none => Unicode.named? name
      match found with
      | some set => return set
      | none => refuse
  else if first == '\\' then refuse
  else
    skipSpaced
    match Unicode.named? [first] with
    | some set => return set
    | none => refuse

/-- The kind of word boundary that a name in braces picks. -/
def specialBoundary? (word : Ranges) : String → Option Assertion
  | "start" => some (.wordStart word)
  | "end" => some (.wordEnd word)
  | "start-half" => some (.noWordBefore word)
  | "end-half" => some (.noWordAfter word)
  | _ => none

/-- A word boundary, with its kind in braces if that follows. -/
def boundary (word : Ranges) : Reader Escape := do
  let isNameChar (c : Char) : Bool := Text.isLetter c || c == '-'
  match (← rest) with
  | brace :: first :: behind =>
    if brace == Char.ofNat 0x7B && isNameChar first then
      let text := first :: behind
      let name := text.takeWhile isNameChar
      match text.dropWhile isNameChar with
      | close :: behind =>
        match specialBoundary? word (String.ofList name) with
        | some condition =>
          if close == Char.ofNat 0x7D then
            setRest behind
            return .assertion condition
          else refuse
        | none => refuse
      | [] => refuse
    else return .assertion (.wordBoundary word)
  | _ => return .assertion (.wordBoundary word)

/-- What stands behind a backslash. -/
def escape : Reader Escape := do
  let flags ← flags
  let word := wordSet flags
  let c ← next
  match c with
  | 'x' => return .literal (← hexadecimal 2 true)
  | 'u' => return .literal (← hexadecimal 4 false)
  | 'U' => return .literal (← hexadecimal 8 false)
  | 'p' => if flags.unicode then return .set (foldSet flags (← classByName)) else refuse
  | 'P' =>
    if flags.unicode then return .set (← negateSet flags true (foldSet flags (← classByName)))
    else refuse
  | 'd' => return .set (if flags.unicode then Unicode.digits else asciiDigits)
  | 'D' =>
    return .set (← negateSet flags true (if flags.unicode then Unicode.digits else asciiDigits))
  | 's' => return .set (if flags.unicode then Unicode.blanks else asciiBlanks)
  | 'S' =>
    return .set (← negateSet flags true (if flags.unicode then Unicode.blanks else asciiBlanks))
  | 'w' => return .set word
  | 'W' => return .set (← negateSet flags true word)
  | 'a' => return .literal (Char.ofNat 7)
  | 'f' => return .literal (Char.ofNat 12)
  | 't' => return .literal '\t'
  | 'n' => return .literal '\n'
  | 'r' => return .literal '\r'
  | 'v' => return .literal (Char.ofNat 11)
  | 'A' => return .assertion .startOfText
  | 'z' => return .assertion .endOfText
  | 'b' => boundary word
  | 'B' => return .assertion (.notWordBoundary word)
  | '<' => return .assertion (.wordStart word)
  | '>' => return .assertion (.wordEnd word)
  | c => if isSyntax c || mayBeEscaped c then return .literal c else refuse

/-! ## Bracketed classes -/

/-- One member of a bracketed class: a character, or a set. -/
def classItem : Reader Escape := do
  match (← next) with
  | '\\' => escape
  | c => return .literal c

/-- A member of a class, or a range from one character to another. -/
def classRange : Reader Ranges := do
  let flags ← flags
  let first ← classItem
  skipSpaced
  let text ← rest
  let behindHyphen := if flags.spaced then dropSpaced text.length (text.drop 1) else text.drop 1
  let isRange :=
    text.head? == some '-' && behindHyphen.head? != some ']' && behindHyphen.head? != some '-'
  let inAscii (c : Char) : Bool := flags.unicode || c.toNat < 0x80
  if text.isEmpty then refuse
  else if isRange then
    setRest behindHyphen
    if behindHyphen.isEmpty then refuse
    else
      match first, (← classItem) with
      | .literal a, .literal b =>
        if a ≤ b && inAscii a && inAscii b then return [(a.toNat, b.toNat)] else refuse
      | _, _ => refuse
  else
    match first with
    | .literal c => if inAscii c then return [(c.toNat, c.toNat)] else refuse
    | .set set => return set
    | .assertion _ => refuse

/-- A class of ASCII characters such as `[:alpha:]`, if one comes next. -/
def asciiClassHere : Reader (Option Ranges) := do
  let flags ← flags
  match Text.stripStart? ['[', ':'] (← rest) with
  | none => return none
  | some text =>
    let (negated, text) :=
      match text with
      | '^' :: behind => (true, behind)
      | text => (false, text)
    match Text.splitFirst? ':' text with
    | some (name, ']' :: behind) =>
      match asciiClass? (String.ofList name) with
      | some set =>
        setRest behind
        return some (← negateSet flags negated (foldSet flags set))
      | none => return none
    | _ => return none

/-- How the parts of a class are combined. -/
inductive SetOperation where
  | intersection
  | difference
  | symmetricDifference

def SetOperation.apply : SetOperation → Ranges → Ranges → Ranges
  | .intersection, a, b => a.intersect b
  | .difference, a, b => a.difference b
  | .symmetricDifference, a, b => a.symmetricDifference b

/-- Ends the operand `union` of a class whose earlier operands are `pending`. -/
def closeOperand (flags : Flags) (pending : Option (SetOperation × Ranges)) (union : Ranges) :
    Ranges :=
  let operand := foldSet flags union
  match pending with
  | some (operation, left) => operation.apply left operand
  | none => operand

/-- The hyphens that may open a class, and a bracket that does so, as members. -/
def openingMembers : Reader Ranges := do
  let flags ← flags
  let strip (text : List Char) : List Char :=
    if flags.spaced then dropSpaced (text.length + 1) text else text
  let rec hyphens : Nat → List Char → Nat × List Char
    | 0, text => (0, text)
    | fuel + 1, text =>
      match text with
      | '-' :: behind =>
        let (count, text) := hyphens fuel (strip behind)
        (count + 1, text)
      | text => (0, text)
  let text ← rest
  let (count, text) := hyphens (text.length + 1) text
  match count, text with
  | 0, ']' :: behind =>
    setRest (strip behind)
    return [(']'.toNat, ']'.toNat)]
  | 0, text => setRest text; return []
  | _, text => setRest text; return [('-'.toNat, '-'.toNat)]

/-- The members of a class behind its opening bracket, up to and with the closing one. -/
def classMembers : Nat → Option (SetOperation × Ranges) → Ranges → Reader Ranges
  | 0, _, _ => refuse
  | fuel + 1, pending, union => do
    skipSpaced
    let flags ← flags
    match (← rest) with
    | [] => refuse
    | ']' :: behind =>
      setRest behind
      return closeOperand flags pending union
    | '[' :: behind =>
      match (← asciiClassHere) with
      | some set => classMembers fuel pending (union ++ set)
      | none =>
        setRest behind
        skipSpaced
        let negated ← accept ['^']
        skipSpaced
        let first ← openingMembers
        let inner ← classMembers fuel none first
        classMembers fuel pending (union ++ (← negateSet flags negated inner))
    | '&' :: '&' :: behind =>
      setRest behind
      classMembers fuel (some (.intersection, closeOperand flags pending union)) []
    | '-' :: '-' :: behind =>
      setRest behind
      classMembers fuel (some (.difference, closeOperand flags pending union)) []
    | '~' :: '~' :: behind =>
      setRest behind
      classMembers fuel (some (.symmetricDifference, closeOperand flags pending union)) []
    | _ => classMembers fuel pending (union ++ (← classRange))

/-- A bracketed class behind its opening bracket. -/
def bracketed : Reader Ranges := do
  skipSpaced
  let negated ← accept ['^']
  skipSpaced
  let first ← openingMembers
  let set ← classMembers (2 * (← rest).length + 2) none first
  negateSet (← flags) negated set

/-! ## Groups -/

/-- A word of flags such as `i-s`, up to the colon or parenthesis behind it. -/
def flagWord : Nat → (negated : Bool) → (seen : List Char) → Flags → Reader Flags
  | 0, _, _, _ => refuse
  | fuel + 1, negated, seen, flags => do
    match (← rest) with
    | [] => refuse
    | c :: behind =>
      if c == ':' || c == ')' then
        if seen.head? == some '-' then refuse else return flags
      else if seen.contains c then refuse
      else
        setRest behind
        let on := !negated
        match c with
        | '-' => flagWord fuel true (c :: seen) flags
        | 'i' => flagWord fuel negated (c :: seen) { flags with ignoreCase := on }
        | 'm' => flagWord fuel negated (c :: seen) { flags with multiLine := on }
        | 's' => flagWord fuel negated (c :: seen) { flags with dotAll := on }
        | 'U' => flagWord fuel negated (c :: seen) { flags with swapGreed := on }
        | 'u' => flagWord fuel negated (c :: seen) { flags with unicode := on }
        | 'R' => flagWord fuel negated (c :: seen) { flags with carriageReturns := on }
        | 'x' => flagWord fuel negated (c :: seen) { flags with spaced := on }
        | _ => refuse

/-- Whether a character may stand in the name of a group. -/
def isNameCharacter (isFirst : Bool) (c : Char) : Bool :=
  let alphabetic := ((Unicode.lookup? Unicode.properties "alphabetic").getD []).contains c
  if isFirst then c == '_' || alphabetic
  else
    c == '_' || c == '.' || c == '[' || c == ']' || alphabetic ||
      ((Unicode.category? "n").getD []).contains c

/-- The name of a group behind the angle bracket. -/
def groupName : Reader Unit := do
  match Text.splitFirst? '>' (← rest) with
  | some (first :: others, behind) =>
    let name := first :: others
    if isNameCharacter true first && others.all (isNameCharacter false) &&
        !(← get).names.contains name then
      modify fun state => { state with rest := behind, names := name :: state.names }
    else refuse
  | _ => refuse

/-- How a parenthesis opens. -/
inductive Opening where
  | group
  | flags

/-- What stands behind an opening parenthesis; flags take effect at once. -/
def opening : Reader Opening := do
  let text ← rest
  let isLookAround := ["?=", "?!", "?<=", "?<!"].any fun start =>
    (Text.stripStart? start.toList text).isSome
  if isLookAround then refuse
  else if ← accept ['?', 'P', '<'] then
    groupName
    return .group
  else if ← accept ['?', '<'] then
    groupName
    return .group
  else if ← accept ['?'] then
    let old ← flags
    let text ← rest
    let new ← flagWord (text.length + 1) false [] old
    let ending ← next
    if ending == ')' then
      if text.head? == some ')' then refuse
      else
        modify fun state => { state with flags := new }
        return .flags
    else
      modify fun state => { state with flags := new }
      return .group
  else
    return .group

/-! ## Repetition -/

/-- A decimal number of 32 bits with blanks around it. -/
def count? (text : List Char) : Option (Nat × List Char) :=
  let text := text.dropWhile Text.isBlank
  let digits := text.takeWhile Numeral.isDigit
  match Numeral.natural? digits with
  | some n =>
    if n < 2 ^ 32 then some (n, (text.dropWhile Numeral.isDigit).dropWhile Text.isBlank) else none
  | none => none

/-- The bounds of a repetition behind the opening brace. -/
def bounds : Reader (Nat × Option Nat) := do
  skipSpaced
  match count? (← rest) with
  | none => refuse
  | some (least, behind) =>
    setRest behind
    let (most?, isOpen) ← do
      if ← accept [','] then
        skipSpaced
        if (← peek?) == some (Char.ofNat 0x7D) then pure (none, true)
        else
          match count? (← rest) with
          | some (most, behind) => setRest behind; pure (some most, false)
          | none => refuse
      else pure (some least, false)
    if !(← accept [Char.ofNat 0x7D]) then refuse
    else
      match most?, isOpen with
      | some most, _ => if least ≤ most then return (least, some most) else refuse
      | none, _ => return (least, none)

/-! ## The whole pattern -/

/-- The set of a single character under the flags. -/
def literalNode (flags : Flags) (c : Char) : Node := .oneOf (foldSet flags [(c.toNat, c.toNat)])

/-- The characters that end a line. -/
def breaks (flags : Flags) : Ranges :=
  if flags.carriageReturns then [(10, 10), (13, 13)] else [(10, 10)]

def dotNode (flags : Flags) : Reader Node :=
  if !flags.unicode then refuse
  else if flags.dotAll then return .oneOf Ranges.full
  else return .oneOf (breaks flags).complement

def escapeNode (flags : Flags) : Escape → Node
  | .literal c => literalNode flags c
  | .set set => .oneOf set
  | .assertion condition => .assertion condition

/-- The nodes of a sequence, last first, as one node. -/
def sequenceOf (items : List (Option Node)) : Node :=
  items.foldl (fun behind item =>
    match item, behind with
    | none, behind => behind
    | some node, .empty => node
    | some node, behind => .sequence node behind) .empty

/-- Alternatives up to a closing parenthesis or the end. `items` are the parts of the current
alternative, last first, a change of flags being none; `done` are the alternatives before it. -/
def alternatives : Nat → (items : List (Option Node)) → (done : Option Node) → Reader Node
  | 0, _, _ => refuse
  | fuel + 1, items, done => do
    skipSpaced
    let flags ← flags
    let finished : Node :=
      match done with
      | some earlier => .either earlier (sequenceOf items)
      | none => sequenceOf items
    /- A repetition of the last part. -/
    let repeatLast (least : Nat) (most? : Option Nat) : Reader Node := do
      let _ ← accept ['?']
      match items with
      | some node :: before =>
        alternatives fuel (some (.repeated node least most?) :: before) done
      | _ => refuse
    match (← rest) with
    | [] => return finished
    | ')' :: _ => return finished
    | '|' :: behind =>
      setRest behind
      alternatives fuel [] (some finished)
    | '(' :: behind =>
      setRest behind
      match (← opening) with
      | .flags => alternatives fuel (none :: items) done
      | .group =>
        let inner ← alternatives fuel [] none
        if ← accept [')'] then
          modify fun state => { state with flags }
          alternatives fuel (some inner :: items) done
        else refuse
    | '[' :: behind =>
      setRest behind
      alternatives fuel (some (.oneOf (← bracketed)) :: items) done
    | '?' :: behind => setRest behind; repeatLast 0 (some 1)
    | '*' :: behind => setRest behind; repeatLast 0 none
    | '+' :: behind => setRest behind; repeatLast 1 none
    | '.' :: behind =>
      setRest behind
      alternatives fuel (some (← dotNode flags) :: items) done
    | '^' :: behind =>
      setRest behind
      let condition : Assertion :=
        if flags.multiLine then .startOfLine (breaks flags) else .startOfText
      alternatives fuel (some (.assertion condition) :: items) done
    | '$' :: behind =>
      setRest behind
      let condition : Assertion :=
        if flags.multiLine then .endOfLine (breaks flags) else .endOfText
      alternatives fuel (some (.assertion condition) :: items) done
    | '\\' :: behind =>
      setRest behind
      alternatives fuel (some (escapeNode flags (← escape)) :: items) done
    | c :: behind =>
      setRest behind
      if c == Char.ofNat 0x7B then
        match items with
        | some _ :: _ =>
          let (least, most?) ← bounds
          repeatLast least most?
        | _ => refuse
      else
        alternatives fuel (some (literalNode flags c) :: items) done

end Pattern

/-- A pattern with the text it was read from. -/
structure Pattern where
  source : String
  root : Pattern.Node

namespace Pattern

/-- The pattern that a text writes, unless its repetitions make it too large. -/
def ofText? (text : String) : Option Pattern :=
  let characters := text.toList
  match (alternatives (2 * characters.length + 2) [] none).run ⟨characters, {}, []⟩ with
  | some (root, state) =>
    if state.rest.isEmpty && root.states ≤ mostStates then some ⟨text, root⟩ else none
  | none => none

/-- Whether a pattern matches somewhere in a text. -/
def occursIn (pattern : Pattern) (text : String) : Bool := pattern.root.occursIn text

end ApiContract.Pattern
