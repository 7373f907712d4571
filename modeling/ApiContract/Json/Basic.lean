import ApiContract.Entries
import ApiContract.Number.Numeral

/-!
# JSON values

A JSON value with its object members in document order. A number is an integer when it was written
without fraction and exponent and fits 64 bits, signed or unsigned; any other number is a binary64
number.
-/

namespace ApiContract

inductive Json where
  | null
  | bool (value : Bool)
  | integer (value : Int)
  | decimal (value : Binary64)
  | string (value : String)
  | array (items : List Json)
  | object (members : List (String × Json))
  deriving Inhabited

namespace Json

def asBool? : Json → Option Bool
  | .bool value => some value
  | _ => none

def asString? : Json → Option String
  | .string value => some value
  | _ => none

def asArray? : Json → Option (List Json)
  | .array items => some items
  | _ => none

def asObject? : Json → Option (Entries Json)
  | .object members => some members
  | _ => none

/-- The number as binary64; an integer is rounded to the nearest one. -/
def asBinary64? : Json → Option Binary64
  | .integer value => some (.ofInt value)
  | .decimal value => some value
  | _ => none

/-- An integer of 64 bits without a sign. -/
def asNatural? : Json → Option Nat
  | .integer (.ofNat n) => if n < 2 ^ 64 then some n else none
  | _ => none

/-- The member of an object with a name. -/
def get? : Json → String → Option Json
  | .object members, key => Entries.get? members key
  | _, _ => none

theorem sizeOf_lt_of_mem_array {items : List Json} {item : Json} (h : item ∈ items) :
    sizeOf item < sizeOf (Json.array items) := by
  have := List.sizeOf_lt_of_mem h
  simp only [Json.array.sizeOf_spec]
  omega

theorem sizeOf_lt_of_mem_object {members : List (String × Json)} {name : String} {value : Json}
    (h : (name, value) ∈ members) : sizeOf value < sizeOf (Json.object members) := by
  have := List.sizeOf_lt_of_mem h
  simp only [Prod.mk.sizeOf_spec] at this
  simp only [Json.object.sizeOf_spec]
  omega

theorem sizeOf_lt_of_get? {members : List (String × Json)} {name : String} {value : Json}
    (h : Entries.get? members name = some value) :
    sizeOf value < sizeOf (Json.object members) :=
  sizeOf_lt_of_mem_object (Entries.mem_of_get? h)

end Json

end ApiContract
