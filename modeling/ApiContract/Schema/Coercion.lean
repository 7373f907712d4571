import ApiContract.Schema.Basic
import ApiContract.Text.Blank
import ApiContract.Value.Basic

/-!
# Reading texts as what a schema asks for

Parameters and forms carry texts only. Before a schema judges them, the texts inside a value are
read as the primitive types that the schema declares for their places. A text that cannot be read
stays a text, so that the schema reports it. Searches through composed schemas are bounded in depth,
because schemas may be cyclic.
-/

namespace ApiContract.SchemaTable

/-- How many levels of values and compositions coercion follows. -/
def coercionSteps : Nat := 65

/-- A text as a value of a primitive type. -/
def readText? (type : SchemaType) (text : String) : Option Value :=
  match type with
  | .integer => (Numeral.int64? (Text.trim text.toList)).map .integer
  | .number =>
    match Numeral.int64? (Text.trim text.toList) with
    | some i => some (.integer i)
    | none => ((Binary64.ofNumeral? (Text.trim text.toList)).filter (·.isFinite)).map .number
  | .boolean =>
    if text = "true" then some (.bool true)
    else if text = "false" then some (.bool false)
    else none
  | .null => if text = "" ∨ text = "null" then some .null else none
  | .string => none
  | .array => none
  | .object => none

/-- The schema for the items of an array: of the schema itself, else of the first member that has
one. -/
def itemSchema? (table : SchemaTable) : (steps : Nat) → Schema → Option SchemaId
  | 0, schema => schema.items?
  | steps + 1, schema =>
    schema.items?.or
      (schema.members.findSome? fun id => (table.get? id).bind (table.itemSchema? steps))

/-- The schema for a property: declared by the schema itself, else found through the first member
that has one, else the one for all further properties. -/
def propertySchema? (table : SchemaTable) (name : String) : (steps : Nat) → Schema → Option SchemaId
  | steps, schema =>
    let fromMembers :=
      match steps with
      | 0 => none
      | steps + 1 =>
        schema.members.findSome? fun id => (table.get? id).bind (table.propertySchema? name steps)
    let further :=
      match schema.extras? with
      | some (.conforming id) => some id
      | _ => none
    (Entries.get? schema.properties name).or (fromMembers.or further)

/-- A text under a schema. Without a type, the first member that reads the text as something else
counts. -/
def coerceText (table : SchemaTable) : (steps : Nat) → Schema → String → Value
  | steps, schema, text =>
    match schema.effectiveType? with
    | some type => (readText? type text).getD (.string text)
    | none =>
      match steps with
      | 0 => .string text
      | steps + 1 =>
        let read (id : SchemaId) : Option Value :=
          match (table.get? id).map fun member => table.coerceText steps member text with
          | none => none
          | some (.string _) => none
          | some value => some value
        (schema.members.findSome? read).getD (.string text)

/-- Reads the texts of a value as a schema declares them. -/
def coerceAt (table : SchemaTable) : (steps : Nat) → SchemaId → Value → Value
  | 0, _, value => value
  | steps + 1, id, value =>
    match table.get? id with
    | none => value
    | some schema =>
      match value with
      | .string text => table.coerceText steps schema text
      | .array items =>
        match table.itemSchema? steps schema with
        | some item => .array (items.map (table.coerceAt steps item))
        | none => .array items
      | .object members =>
        .object (members.map fun (name, member) =>
          match table.propertySchema? name steps schema with
          | some property => (name, table.coerceAt steps property member)
          | none => (name, member))
      | value => value

/-- Reads the texts of a value as a schema declares them. -/
def coerce (table : SchemaTable) (id : SchemaId) (value : Value) : Value :=
  table.coerceAt coercionSteps id value

end ApiContract.SchemaTable
