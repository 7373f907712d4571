import ApiContract.Json.Basic
import ApiContract.Pattern.Reader

/-!
# Schemas

A schema says which values are accepted and how they are typed. The schemas of a description live in
one table and refer to each other by their position in it, so that recursive schemas are cycles of
positions.
-/

namespace ApiContract

/-- The kinds of values that a schema may ask for (`type`). -/
inductive SchemaType where
  | string
  | number
  | integer
  | boolean
  | array
  | object
  | null
  deriving DecidableEq, Repr

namespace SchemaType

def name : SchemaType → String
  | .string => "string"
  | .number => "number"
  | .integer => "integer"
  | .boolean => "boolean"
  | .array => "array"
  | .object => "object"
  | .null => "null"

def ofName? : String → Option SchemaType
  | "string" => some .string
  | "number" => some .number
  | "integer" => some .integer
  | "boolean" => some .boolean
  | "array" => some .array
  | "object" => some .object
  | "null" => some .null
  | _ => none

theorem ofName?_name (type : SchemaType) : ofName? type.name = some type := by
  cases type <;> rfl

end SchemaType

/-- The position of a schema in its table. -/
abbrev SchemaId := Nat

/-- What a schema says about properties that it does not declare (`additionalProperties`). -/
inductive Extras where
  | allowed (isAllowed : Bool)
  | conforming (schema : SchemaId)
  deriving DecidableEq, Repr

/-- A property whose text picks the schema of the whole object. -/
structure Discriminator where
  property : String
  mapping : Entries SchemaId
  deriving DecidableEq, Repr

/-- The keywords that bound texts, numbers, arrays and objects. -/
structure Constraints where
  minLength? : Option Nat := none
  maxLength? : Option Nat := none
  pattern? : Option Pattern := none
  minimum? : Option Binary64 := none
  maximum? : Option Binary64 := none
  /-- Whether `minimum?` itself is refused. -/
  exclusiveMinimum : Bool := false
  /-- Whether `maximum?` itself is refused. -/
  exclusiveMaximum : Bool := false
  multipleOf? : Option Binary64 := none
  minItems? : Option Nat := none
  maxItems? : Option Nat := none
  uniqueItems : Bool := false
  minProperties? : Option Nat := none
  maxProperties? : Option Nat := none

structure Schema where
  type? : Option SchemaType := none
  format? : Option String := none
  nullable : Bool := false
  required : List String := []
  properties : Entries SchemaId := []
  items? : Option SchemaId := none
  extras? : Option Extras := none
  allOf : List SchemaId := []
  oneOf : List SchemaId := []
  anyOf : List SchemaId := []
  discriminator? : Option Discriminator := none
  /-- The accepted literals (`enum`). -/
  literals? : Option (List Json) := none
  default? : Option Json := none
  constraints : Constraints := {}

instance : Inhabited Schema := ⟨{}⟩

namespace Schema

def ofType (type : SchemaType) : Schema := { type? := some type }

/-- Whether other schemas take part in judging the same value. -/
def isComposed (schema : Schema) : Bool :=
  !schema.allOf.isEmpty || !schema.oneOf.isEmpty || !schema.anyOf.isEmpty

/-- The schemas that take part in judging the same value. -/
def members (schema : Schema) : List SchemaId := schema.allOf ++ schema.oneOf ++ schema.anyOf

/-- The declared type, else the one that the keywords for objects or arrays imply. -/
def effectiveType? (schema : Schema) : Option SchemaType :=
  match schema.type? with
  | some type => some type
  | none =>
    if !schema.properties.isEmpty || !schema.required.isEmpty || schema.extras?.isSome then
      some .object
    else if schema.items?.isSome then
      some .array
    else
      none

end Schema

/-- The schemas of a description. -/
structure SchemaTable where
  schemas : Array Schema := #[]

namespace SchemaTable

def empty : SchemaTable := {}

def size (table : SchemaTable) : Nat := table.schemas.size

/-- The positions that are taken, in order. -/
def ids (table : SchemaTable) : List SchemaId := List.range table.size

/-- The schema at a position; past the end there is none. -/
def get? (table : SchemaTable) (id : SchemaId) : Option Schema := table.schemas[id]?

/-- Adds a schema behind the others. -/
def push (table : SchemaTable) (schema : Schema) : SchemaId × SchemaTable :=
  (table.size, ⟨table.schemas.push schema⟩)

/-- Takes a position for a schema that is filled in later. -/
def reserve (table : SchemaTable) : SchemaId × SchemaTable := table.push {}

/-- Fills in the schema of a position that is taken. -/
def set (table : SchemaTable) (id : SchemaId) (schema : Schema) : SchemaTable :=
  ⟨table.schemas.setIfInBounds id schema⟩

theorem get?_push_self (table : SchemaTable) (schema : Schema) :
    (table.push schema).2.get? (table.push schema).1 = some schema := by
  simp [push, get?, size]

theorem get?_set_self {table : SchemaTable} {id : SchemaId} (schema : Schema)
    (h : id < table.size) : (table.set id schema).get? id = some schema := by
  have h' : id < table.schemas.size := h
  simp [set, get?, h']

theorem size_set (table : SchemaTable) (id : SchemaId) (schema : Schema) :
    (table.set id schema).size = table.size := by
  simp [set, size]

theorem lt_size_of_get? {table : SchemaTable} {id : SchemaId} {schema : Schema}
    (h : table.get? id = some schema) : id < table.size := by
  unfold get? at h
  exact (Array.getElem?_eq_some_iff.1 h).1

theorem mem_ids_of_get? {table : SchemaTable} {id : SchemaId} {schema : Schema}
    (h : table.get? id = some schema) : id ∈ table.ids :=
  List.mem_range.2 (lt_size_of_get? h)

end SchemaTable

end ApiContract
