import ApiContract.Json.Printer
import ApiContract.Text.Base64
import ApiContract.Value.Basic

/-!
# Values on the wire

How a value looks as JSON, how JSON is read as a value, and when a value is a given literal of a
document. Typed texts are written the way they travel: dates and timestamps in their standard forms,
bytes in base64, identifiers with hyphens.
-/

namespace ApiContract.Value

mutual

def toJson : Value → Json
  | .null => .null
  | .bool value => .bool value
  | .integer value => .integer value.toInt
  | .number value => if value.isFinite then .decimal value else .null
  | .string value => .string value
  | .bytes value => .string (String.ofList (Base64.encode .standard value))
  | .date value => .string (String.ofList value.toText)
  | .timestamp value => .string (String.ofList value.toText)
  | .uuid value => .string (String.ofList value.toText)
  | .array items => .array (itemsToJson items)
  | .object members => .object (membersToJson members)

def itemsToJson : List Value → List Json
  | [] => []
  | item :: rest => toJson item :: itemsToJson rest

def membersToJson : List (String × Value) → List (String × Json)
  | [] => []
  | (name, value) :: rest => (name, toJson value) :: membersToJson rest

end

mutual

/-- Reads JSON: a number is an integer if it is one of 64 bits with sign. -/
def ofJson : Json → Value
  | .null => .null
  | .bool value => .bool value
  | .integer value =>
    if value ≤ Int64.maxValue.toInt then .integer (.ofInt value) else .number (.ofInt value)
  | .decimal value => .number value
  | .string value => .string value
  | .array items => .array (itemsOfJson items)
  | .object members => .object (membersOfJson members)

def itemsOfJson : List Json → List Value
  | [] => []
  | item :: rest => ofJson item :: itemsOfJson rest

def membersOfJson : List (String × Json) → List (String × Value)
  | [] => []
  | (name, value) :: rest => (name, ofJson value) :: membersOfJson rest

end

/-- The text of a textual value as it travels. -/
def wireText? (value : Value) : Option String :=
  if value.isTextual then value.toJson.asString? else none

mutual

/-- Equality of JSON with numbers compared as numbers and objects without regard to order. -/
def sameJson : Json → Json → Bool
  | .null, .null => true
  | .bool a, .bool b => a == b
  | .integer a, .integer b => (Binary64.ofInt a).same (.ofInt b)
  | .integer a, .decimal b => (Binary64.ofInt a).same b
  | .decimal a, .integer b => a.same (.ofInt b)
  | .decimal a, .decimal b => a.same b
  | .string a, .string b => a == b
  | .array a, .array b => sameJsonItems a b
  | .object a, .object b => a.length == b.length && sameJsonMembers a b
  | _, _ => false

def sameJsonItems : List Json → List Json → Bool
  | [], [] => true
  | a :: as, b :: bs => sameJson a b && sameJsonItems as bs
  | _, _ => false

def sameJsonMembers : List (String × Json) → List (String × Json) → Bool
  | [], _ => true
  | (name, a) :: as, bs =>
    (match Entries.get? bs name with
    | some b => sameJson a b
    | none => false) && sameJsonMembers as bs

end

/-- Whether the value is the given literal of a document. -/
def matchesLiteral (value : Value) (literal : Json) : Bool := sameJson value.toJson literal

end ApiContract.Value
