import ApiContract.Yaml.Content
import ApiContract.Yaml.Lexer
import ApiContract.Yaml.Node

/-!
# Reading YAML

A plain text is read as null, a truth value or a number if it is written like one; tags can ask for
one of these or forbid it. Aliases are replaced by what they stand for, within bounds on depth and
on the number of replacements, so that a small text cannot become arbitrarily large.
-/

namespace ApiContract.Yaml

/-- Why a text cannot be read as JSON. -/
inductive Fault where
  /-- The text is malformed. -/
  | malformed
  /-- A key of a mapping has no text. -/
  | keyWithoutText
  deriving DecidableEq, Repr

namespace Content

def isNull (text : String) : Bool := ["null", "Null", "NULL", "~"].contains text

def bool? (text : String) : Option Bool :=
  if ["true", "True", "TRUE"].contains text then some true
  else if ["false", "False", "FALSE"].contains text then some false
  else none

/-- Digits behind a zero, which are a text. -/
def isPaddedWithZeros (text : List Char) : Bool :=
  let (_, digits) := Numeral.splitSign text
  match digits with
  | '0' :: rest => !rest.isEmpty && rest.all Numeral.isDigit
  | _ => false

/-- The number that digits to a base stand for. -/
def ofDigits? (base : Nat) (digits : List Char) : Option Nat :=
  if digits.isEmpty then none
  else digits.foldlM (fun n c => do
    let digit ← Text.hexValue? c
    if digit < base then some (base * n + digit) else none) 0

/-- A natural number, to the base that its first two characters name or else to base ten. -/
def natural? (text : List Char) : Option Nat :=
  let based :=
    match text with
    | '0' :: 'x' :: digits => ofDigits? 16 digits
    | '0' :: 'o' :: digits => ofDigits? 8 digits
    | '0' :: 'b' :: digits => ofDigits? 2 digits
    | _ => none
  based.or (if isPaddedWithZeros text then none else ofDigits? 10 text)

/-- An integer with an optional sign. -/
def integer? (text : List Char) : Option Int :=
  match text with
  | '-' :: rest => (natural? rest).map fun n => -(n : Int)
  | '+' :: rest => (natural? rest).map fun n => (n : Int)
  | rest => (natural? rest).map fun n => (n : Int)

/-- Numbers that are too long for 128 bits count as texts or binary numbers. -/
def isInteger128 (i : Int) : Bool := -(2 ^ 127) ≤ i && i < 2 ^ 128

/-- Integers are those of 64 bits, with or without a sign. -/
def isInteger64 (i : Int) : Bool := -(2 ^ 63) ≤ i && i < 2 ^ 64

/-- A finite binary number, or one of the words for the others. -/
def decimal? (text : String) : Option Binary64 :=
  let unsigned :=
    match text.toList with
    | '+' :: rest => rest
    | rest => rest
  let hasTwoSigns := unsigned.length < text.length &&
    (unsigned.head? == some '+' || unsigned.head? == some '-')
  if hasTwoSigns then none
  else if [".inf", ".Inf", ".INF"].contains (String.ofList unsigned) then some (.infinity false)
  else if ["-.inf", "-.Inf", "-.INF"].contains text then some (.infinity true)
  else if [".nan", ".NaN", ".NAN"].contains text then some .nan
  else (Binary64.ofNumeral? unsigned).filter (·.isFinite)

/-- The integer that a text writes, if it is short enough to count as one; an inner `none` is an
integer that is out of range. -/
def boundedInteger? (text : String) : Option (Option Int) :=
  match integer? text.toList with
  | none => none
  | some i =>
    if isInteger64 i then some (some i)
    else if isInteger128 i then some none
    else none

/-- A plain text without a tag. -/
def ofPlain? (text : String) : Option Content :=
  if text.isEmpty || isNull text then some .null
  else
    match bool? text with
    | some value => some (.bool value)
    | none =>
      match boundedInteger? text with
      | some i? => i?.map .integer
      | none =>
        let number? := if isPaddedWithZeros text.toList then none else decimal? text
        some ((number?.map .decimal).getD (.string text))

/-- The tags of the kinds that a text may be asked to have. -/
def standardTag (kind : String) : String := "tag:yaml.org,2002:" ++ kind

/-- A text with a tag that is not a local one. -/
def ofTagged? (tag text : String) : Option Content :=
  if tag = standardTag "bool" then (bool? text).map .bool
  else if tag = standardTag "int" then
    match boundedInteger? text with
    | some i? => i?.map .integer
    | none => none
  else if tag = standardTag "float" then (decimal? text).map .decimal
  else if tag = standardTag "null" then if isNull text then some .null else none
  else some (.string text)

/-- The name of a local tag, which begins with an exclamation mark. -/
def localTag? (tag? : Option String) : Option String :=
  match tag?.map String.toList with
  | some ['!'] => some "!"
  | some ('!' :: name) => some (String.ofList name)
  | _ => none

/-- A name without an exclamation mark in front, unless it is nothing else. -/
def bareName (name : String) : String :=
  match name.toList with
  | '!' :: c :: rest => String.ofList (c :: rest)
  | _ => name

/-- Content under its local tag, if it has one. -/
def withTag (tag? : Option String) (content : Content) : Content :=
  match localTag? tag? with
  | some name => .tagged (bareName name) content
  | none => content

/-- A text with what stands in front of it. -/
def ofScalar? (tag? : Option String) (text : String) (isPlain : Bool) : Option Content :=
  match tag?, localTag? tag? with
  | some tag, none => ofTagged? tag text
  | _, _ => if isPlain then ofPlain? text else some (.string text)

end Content

namespace Node

/-- The anchors met so far while nodes are visited in the order of the text. -/
structure Anchors where
  /-- The numbers of the names. -/
  numbers : Entries Nat := []
  /-- How many nodes begin in front of the present place. -/
  visited : Nat := 0
  /-- What the numbers stand for, with the places of the nodes. -/
  targets : List (Nat × Nat × Node Nat) := []

/-- Visits nodes in the order of the text. -/
abbrev Visit := StateT Anchors Option

/-- Numbers the anchor of a node: names are numbered by how many are known. -/
def number? (properties : Properties) : Visit (Option (Nat × Nat)) := do
  let anchors ← get
  set { anchors with visited := anchors.visited + 1 }
  match properties.anchor? with
  | none => return none
  | some name =>
    let number := anchors.numbers.length
    modify fun anchors => { anchors with numbers := Entries.insert anchors.numbers name number }
    return some (number, anchors.visited)

/-- Remembers what a number stands for; of several nodes, the last in the text counts. -/
def remember (number? : Option (Nat × Nat)) (node : Node Nat) : Visit Unit :=
  match number? with
  | none => return
  | some (number, place) =>
    modify fun anchors =>
      let isLater := anchors.targets.all fun (other, otherPlace, _) =>
        other != number || otherPlace < place
      if isLater then
        { anchors with targets := (number, place, node) :: anchors.targets.filter (·.1 != number) }
      else anchors

mutual

/-- A node in which aliases name the numbers of their anchors. -/
def numbered : Node String → Visit (Node Nat)
  | .scalar properties text isPlain => do
    let number? ← number? properties
    remember number? (.scalar properties text isPlain)
    return .scalar properties text isPlain
  | .sequence properties items => do
    let number? ← number? properties
    let node := .sequence properties (← numberedItems items)
    remember number? node
    return node
  | .mapping properties entries => do
    let number? ← number? properties
    let node := .mapping properties (← numberedEntries entries)
    remember number? node
    return node
  | .alias name => do
    let anchors ← get
    set { anchors with visited := anchors.visited + 1 }
    match Entries.get? anchors.numbers name with
    | some number => return .alias number
    | none => failure

def numberedItems : List (Node String) → Visit (List (Node Nat))
  | [] => return []
  | item :: rest => do
    let item ← numbered item
    return item :: (← numberedItems rest)

def numberedEntries :
    List (Node String × Node String) → Visit (List (Node Nat × Node Nat))
  | [] => return []
  | (key, value) :: rest => do
    let key ← numbered key
    let value ← numbered value
    return (key, value) :: (← numberedEntries rest)

end

mutual

/-- How many marks a node takes: one for a text or an alias, two for a collection beside its
parts. -/
def weight : Node Nat → Nat
  | .scalar .. => 1
  | .alias _ => 1
  | .sequence _ items => 2 + weightOfItems items
  | .mapping _ entries => 2 + weightOfEntries entries

def weightOfItems : List (Node Nat) → Nat
  | [] => 0
  | item :: rest => weight item + weightOfItems rest

def weightOfEntries : List (Node Nat × Node Nat) → Nat
  | [] => 0
  | (key, value) :: rest => weight key + weight value + weightOfEntries rest

end

/-- What is needed to replace aliases: their targets, and how many may be replaced at all. -/
structure Aliases where
  targets : List (Nat × Nat × Node Nat)
  most : Nat

/-- Replaces aliases, counting them. -/
abbrev Expansion := StateT Nat Option

/-- The node that an alias stands for. -/
def follow (aliases : Aliases) (node : Node Nat) : Expansion (Node Nat) :=
  match node with
  | .alias number => do
    modify (· + 1)
    if aliases.most < (← get) then failure
    match aliases.targets.lookup number with
    | some (_, target) => return target
    | none => failure
  | node => return node

/-- The deepest nesting of collections. -/
def maxDepth : Nat := 128

/-- The content of a node with its aliases replaced. No key of a mapping may occur twice. -/
def content (aliases : Aliases) : (depth : Nat) → Node Nat → Expansion Content
  | depth, node => do
    match ← follow aliases node with
    | .scalar properties text isPlain =>
      return .withTag properties.tag? (← Content.ofScalar? properties.tag? text isPlain)
    | .sequence properties items =>
      match depth with
      | 0 => failure
      | depth + 1 =>
        return .withTag properties.tag? (.sequence (← items.mapM (content aliases depth)))
    | .mapping properties entries =>
      match depth with
      | 0 => failure
      | depth + 1 =>
        let entries ← entries.mapM fun (key, value) => do
          return (← content aliases depth key, ← content aliases depth value)
        if Content.repeatsKey (entries.map Prod.fst) then failure
        return .withTag properties.tag? (.mapping entries)
    | .alias _ => failure

/-- The content of a document. -/
def toContent? (root : Node String) : Option Content := do
  let (root, anchors) ← root.numbered.run {}
  let aliases : Aliases := ⟨anchors.targets, 100 * root.weight⟩
  let (content, _) ← (root.content aliases maxDepth).run 0
  return content

end Node

/-- Reads the only document of a text as JSON; an empty text is null. -/
def toJson (text : String) : Except Fault Json :=
  let content? : Option Content := do
    let tokens ← Token.ofText? text.toList
    match ← Node.ofTokens? tokens with
    | none => some .null
    | some root => root.toContent?
  match content? with
  | none => .error .malformed
  | some content =>
    match content.toJson? with
    | some json => .ok json
    | none => .error .keyWithoutText

end ApiContract.Yaml
