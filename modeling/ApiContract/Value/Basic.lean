import ApiContract.Calendar.Timestamp
import ApiContract.Entries
import ApiContract.Uuid

/-!
# Values

The structured values that bodies and parameters are read into. Readers of the wire produce only the
shapes of JSON and opaque bytes; dates, timestamps and identifiers appear when a schema's format
gives a text its type.
-/

namespace ApiContract

open Calendar

inductive Value where
  | null
  | bool (value : Bool)
  | integer (value : Int64)
  | number (value : Binary64)
  | string (value : String)
  | bytes (value : List UInt8)
  | date (value : Date)
  | timestamp (value : Timestamp)
  | uuid (value : Uuid)
  | array (items : List Value)
  | object (members : List (String × Value))
  deriving Inhabited

/-- The kinds of values that messages tell apart. -/
inductive ValueKind where
  | null
  | boolean
  | integer
  | number
  | string
  | bytes
  | date
  | timestamp
  | uuid
  | array
  | object
  deriving DecidableEq, Repr

def ValueKind.name : ValueKind → String
  | .null => "null"
  | .boolean => "boolean"
  | .integer => "integer"
  | .number => "number"
  | .string => "string"
  | .bytes => "bytes"
  | .date => "date"
  | .timestamp => "date-time"
  | .uuid => "uuid"
  | .array => "array"
  | .object => "object"

namespace Value

def kind : Value → ValueKind
  | .null => .null
  | .bool _ => .boolean
  | .integer _ => .integer
  | .number _ => .number
  | .string _ => .string
  | .bytes _ => .bytes
  | .date _ => .date
  | .timestamp _ => .timestamp
  | .uuid _ => .uuid
  | .array _ => .array
  | .object _ => .object

def isNull : Value → Bool
  | .null => true
  | _ => false

/-- Whether the value is a text on the wire, typed or not. -/
def isTextual : Value → Bool
  | .string _ => true
  | .bytes _ => true
  | .date _ => true
  | .timestamp _ => true
  | .uuid _ => true
  | _ => false

def isContainer : Value → Bool
  | .array _ => true
  | .object _ => true
  | _ => false

def asString? : Value → Option String
  | .string value => some value
  | _ => none

/-- The number as binary64; an integer is rounded to the nearest one. -/
def asBinary64? : Value → Option Binary64
  | .integer value => some (.ofInt value.toInt)
  | .number value => some value
  | _ => none

def asObject? : Value → Option (Entries Value)
  | .object members => some members
  | _ => none

def asArray? : Value → Option (List Value)
  | .array items => some items
  | _ => none

/-- The member of an object with a name. -/
def get? : Value → String → Option Value
  | .object members, key => Entries.get? members key
  | _, _ => none

/-- The values directly inside an array or an object. -/
def children : Value → List Value
  | .array items => items
  | .object members => members.map Prod.snd
  | _ => []

theorem sizeOf_lt_of_mem_children {child value : Value} (h : child ∈ value.children) :
    sizeOf child < sizeOf value := by
  cases value with
  | array items =>
    have := List.sizeOf_lt_of_mem (show child ∈ items from h)
    simp only [Value.array.sizeOf_spec]
    omega
  | object members =>
    obtain ⟨⟨name, member⟩, hmem, rfl⟩ := List.mem_map.1 h
    have := List.sizeOf_lt_of_mem hmem
    simp only [Prod.mk.sizeOf_spec] at this
    simp only [Value.object.sizeOf_spec]
    omega
  | _ => simp [children] at h

mutual

/-- Equality of content: numbers as numbers, timestamps as instants, and objects without regard to
the order of their members. A number that is not a number differs from itself. -/
def same : Value → Value → Bool
  | .null, .null => true
  | .bool a, .bool b => a == b
  | .integer a, .integer b => a == b
  | .number a, .number b => a.same b
  | .string a, .string b => a == b
  | .bytes a, .bytes b => a == b
  | .date a, .date b => a == b
  | .timestamp a, .timestamp b => a.same b
  | .uuid a, .uuid b => a == b
  | .array a, .array b => sameItems a b
  | .object a, .object b => a.length == b.length && sameMembers a b
  | _, _ => false

def sameItems : List Value → List Value → Bool
  | [], [] => true
  | a :: as, b :: bs => same a b && sameItems as bs
  | _, _ => false

def sameMembers : List (String × Value) → List (String × Value) → Bool
  | [], _ => true
  | (name, a) :: as, bs =>
    (match Entries.get? bs name with
    | some b => same a b
    | none => false) && sameMembers as bs

end

end Value

end ApiContract
