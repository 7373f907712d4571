import ApiContract.Yaml.Token

/-!
# From tokens to nodes

A document is a node: a text, a sequence, a mapping, or an alias for a node that bears an anchor.
Nodes may bear a tag. Where a node is expected but none is written, it is an empty plain text.
-/

namespace ApiContract.Yaml

/-- What stands in front of a node. -/
structure Properties where
  anchor? : Option String := none
  tag? : Option String := none
  deriving DecidableEq, Repr

/-- A node; `α` is what aliases name their targets by. -/
inductive Node (α : Type) where
  | scalar (properties : Properties) (text : String) (isPlain : Bool)
  | sequence (properties : Properties) (items : List (Node α))
  | mapping (properties : Properties) (entries : List (Node α × Node α))
  | alias (target : α)

namespace Node

/-- The node that is meant where none is written. -/
def empty {α : Type} : Node α := .scalar {} "" true

/-- Reads nodes from tokens. -/
abbrev Parsing := StateT (List Token) Option

/-- What the handles of tags stand for. -/
abbrev Handles := List (String × String)

namespace Parsing

def peek : Parsing Token := do
  match ← get with
  | token :: _ => return token
  | [] => failure

def skip : Parsing Unit := modify List.tail

/-- The full tag of a handle and what follows it. -/
def fullTag (handles : Handles) (handle suffix : String) : Option String :=
  if handle.isEmpty then some suffix
  else (handles.lookup handle).map fun start => start ++ suffix

/-- Reads an anchor and a tag, in either order. -/
def properties (handles : Handles) : Parsing Properties := do
  match ← peek with
  | .anchor name =>
    skip
    match ← peek with
    | .tag handle suffix =>
      skip
      return ⟨some name, some (← fullTag handles handle suffix)⟩
    | _ => return ⟨some name, none⟩
  | .tag handle suffix =>
    skip
    let tag ← fullTag handles handle suffix
    match ← peek with
    | .anchor name =>
      skip
      return ⟨some name, some tag⟩
    | _ => return ⟨none, some tag⟩
  | _ => return {}

/-- Tokens in front of which the key or the value of a block is empty. -/
def endsBlockNode : Token → Bool
  | .key => true
  | .value => true
  | .blockEnd => true
  | _ => false

/-- Reads the comma in front of an entry in brackets that is not the first. -/
def comma (isFirst : Bool) : Parsing Unit := do
  if !isFirst then
    match ← peek with
    | .flowEntry => skip
    | _ => failure

/-- Reads a part of an entry, which is empty in front of some tokens. -/
def unlessAt (ends : Token → Bool) (read : Parsing (Node String)) : Parsing (Node String) := do
  if ends (← peek) then return empty else read

/-- Reads what stands behind a colon, or nothing if there is none. -/
def behindColon (ends : Token → Bool) (read : Parsing (Node String)) : Parsing (Node String) := do
  match ← peek with
  | .value =>
    skip
    unlessAt ends read
  | _ => return empty

mutual

/-- Reads a node. Blocks begin only where `isBlock` holds; `mayBeBare` allows the entries of a
sequence that is not indented. -/
def node (handles : Handles) : (fuel : Nat) → (isBlock mayBeBare : Bool) → Parsing (Node String)
  | 0, _, _ => failure
  | fuel + 1, isBlock, mayBeBare => do
    match ← peek with
    | .alias name =>
      skip
      return .alias name
    | _ =>
      let given ← properties handles
      let token ← peek
      match token with
      | .scalar text isPlain =>
        skip
        let tag? := given.tag?.filter (· != "!")
        return .scalar { given with tag? } text isPlain
      | .flowSequenceStart =>
        skip
        return .sequence given (← flowItems handles fuel true)
      | .flowMappingStart =>
        skip
        return .mapping given (← flowEntries handles fuel true)
      | _ =>
        if token = .blockEntry && mayBeBare then
          return .sequence given (← bareItems handles fuel)
        else if token = .blockSequenceStart && isBlock then
          skip
          return .sequence given (← blockItems handles fuel)
        else if token = .blockMappingStart && isBlock then
          skip
          return .mapping given (← blockEntries handles fuel)
        else if given = {} then failure
        else return .scalar given "" true

def blockItems (handles : Handles) : (fuel : Nat) → Parsing (List (Node String))
  | 0 => failure
  | fuel + 1 => do
    match ← peek with
    | .blockEntry =>
      skip
      let ends (token : Token) : Bool := token = .blockEntry || token = .blockEnd
      let item ← unlessAt ends (node handles fuel true false)
      return item :: (← blockItems handles fuel)
    | .blockEnd =>
      skip
      return []
    | _ => failure

/-- The items of a sequence that is indented as its surroundings. -/
def bareItems (handles : Handles) : (fuel : Nat) → Parsing (List (Node String))
  | 0 => failure
  | fuel + 1 => do
    match ← peek with
    | .blockEntry =>
      skip
      let ends (token : Token) : Bool := token = .blockEntry || endsBlockNode token
      let item ← unlessAt ends (node handles fuel true false)
      return item :: (← bareItems handles fuel)
    | _ => return []

def blockEntries (handles : Handles) : (fuel : Nat) → Parsing (List (Node String × Node String))
  | 0 => failure
  | fuel + 1 => do
    match ← peek with
    | .key =>
      skip
      let key ← unlessAt endsBlockNode (node handles fuel true true)
      let value ← behindColon endsBlockNode (node handles fuel true true)
      return (key, value) :: (← blockEntries handles fuel)
    | .blockEnd =>
      skip
      return []
    | _ => failure

/-- The items in brackets; a key makes a mapping of one entry. An empty key takes the token behind
it with it. -/
def flowItems (handles : Handles) : (fuel : Nat) → (isFirst : Bool) → Parsing (List (Node String))
  | 0, _ => failure
  | fuel + 1, isFirst => do
    match ← peek with
    | .flowSequenceEnd =>
      skip
      return []
    | _ =>
      comma isFirst
      match ← peek with
      | .flowSequenceEnd =>
        skip
        return []
      | .key =>
        skip
        let ends (token : Token) : Bool :=
          token = .value || token = .flowEntry || token = .flowSequenceEnd
        let key ←
          if ends (← peek) then do
            skip
            pure empty
          else node handles fuel false false
        let value ← behindColon
          (fun token => token = .flowEntry || token = .flowSequenceEnd)
          (node handles fuel false false)
        return .mapping {} [(key, value)] :: (← flowItems handles fuel false)
      | _ =>
        let item ← node handles fuel false false
        return item :: (← flowItems handles fuel false)

/-- The entries in braces; a node that is no key has an empty value. -/
def flowEntries (handles : Handles) :
    (fuel : Nat) → (isFirst : Bool) → Parsing (List (Node String × Node String))
  | 0, _ => failure
  | fuel + 1, isFirst => do
    match ← peek with
    | .flowMappingEnd =>
      skip
      return []
    | _ =>
      comma isFirst
      match ← peek with
      | .flowMappingEnd =>
        skip
        return []
      | .key =>
        skip
        let ends (token : Token) : Bool := token = .flowEntry || token = .flowMappingEnd
        let key ← unlessAt (fun token => token = .value || ends token)
          (node handles fuel false false)
        let value ← behindColon ends (node handles fuel false false)
        return (key, value) :: (← flowEntries handles fuel false)
      | _ =>
        let key ← node handles fuel false false
        return (key, empty) :: (← flowEntries handles fuel false)

end

/-- Reads the directives of a document. -/
def directives (hasVersion : Bool) (handles : Handles) : (fuel : Nat) → Parsing Handles
  | 0 => failure
  | fuel + 1 => do
    match ← peek with
    | .version major minor =>
      if hasVersion || major != 1 || (minor != 1 && minor != 2) then failure
      skip
      directives true handles fuel
    | .handle name start =>
      if (handles.lookup name).isSome then failure
      skip
      directives hasVersion (handles ++ [(name, start)]) fuel
    | _ => return handles

/-- The handles that every document has, unless it says otherwise. -/
def standardHandles : Handles := [("!", "!"), ("!!", "tag:yaml.org,2002:")]

/-- Skips the marks behind a document, after which the stream has to end. -/
def endOfStream : (fuel : Nat) → Parsing Unit
  | 0 => failure
  | fuel + 1 => do
    match ← peek with
    | .documentEnd =>
      skip
      endOfStream fuel
    | .streamEnd => return
    | _ => failure

/-- Whether a token stands in front of a document or behind it. -/
def isBetweenDocuments : Token → Bool
  | .version .. => true
  | .handle .. => true
  | .documentStart => true
  | .documentEnd => true
  | .streamEnd => true
  | _ => false

/-- Reads the only document of a stream, if it has one. -/
def stream (fuel : Nat) : Parsing (Option (Node String)) := do
  let token ← peek
  if token = .streamEnd then return none
  else if isBetweenDocuments token && token != .documentEnd then
    let handles ← directives false [] fuel
    match ← peek with
    | .documentStart =>
      skip
      let root ← unlessAt isBetweenDocuments (node (handles ++ standardHandles) fuel true false)
      endOfStream fuel
      return some root
    | _ => failure
  else
    let root ← node standardHandles fuel true false
    endOfStream fuel
    return some root

end Parsing

/-- The document that tokens make up: `none` for an empty stream, and a failure for anything but one
document. -/
def ofTokens? (tokens : List Token) : Option (Option (Node String)) :=
  ((Parsing.stream (2 * tokens.length + 2)).run tokens).map Prod.fst

end Node

end ApiContract.Yaml
