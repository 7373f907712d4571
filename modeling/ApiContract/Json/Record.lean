import ApiContract.Json.Basic

/-!
# Records in JSON

A record is an object whose members are found by name, or an array with the fields in their declared
order. `RecordReader` reads the fields one after the other; members that no field asks for are
passed over, but an array may not hold more than the fields.
-/

namespace ApiContract

/-- Reads a JSON value as something else, if it is of the right form. -/
abbrev JsonReader (α : Type) := Json → Option α

namespace JsonReader

def string : JsonReader String := Json.asString?

def bool : JsonReader Bool := Json.asBool?

def any : JsonReader Json := some

/-- Null stands for nothing. -/
def nullable {α : Type} (read : JsonReader α) : JsonReader (Option α)
  | .null => some none
  | json => (read json).map some

def list {α : Type} (read : JsonReader α) : JsonReader (List α)
  | .array items => items.mapM read
  | _ => none

def map {α : Type} (read : JsonReader α) : JsonReader (Entries α)
  | .object members => members.mapM fun (name, json) => (read json).map fun value => (name, value)
  | _ => none

end JsonReader

/-- The fields of a record that are still to be read. -/
inductive Fields where
  | named (members : Entries Json)
  | ordered (items : List Json)

abbrev RecordReader (α : Type) := StateT Fields Option α

namespace RecordReader

/-- A field of the record, read if it is there. -/
def lookup? {α : Type} (name : String) (read : JsonReader α) : RecordReader (Option α) := do
  match ← get with
  | .named members =>
    match Entries.get? members name with
    | some json => some <$> (read json : Option α)
    | none => return none
  | .ordered [] => return none
  | .ordered (json :: rest) =>
    set (Fields.ordered rest)
    some <$> (read json : Option α)

/-- A field that has to be there. -/
def field {α : Type} (name : String) (read : JsonReader α) : RecordReader α := do
  let value? ← lookup? name read
  (value? : Option α)

/-- A field with a value for its absence. -/
def fieldOr {α : Type} (name : String) (read : JsonReader α) (absent : α) : RecordReader α := do
  return (← lookup? name read).getD absent

/-- A field that may be null, or missing from an object. -/
def field? {α : Type} (name : String) (read : JsonReader α) : RecordReader (Option α) := do
  match ← get, ← lookup? name read.nullable with
  | _, some value? => return value?
  | .named _, none => return none
  | .ordered _, none => failure

/-- Reads a whole record. -/
def run {α : Type} (reader : RecordReader α) : JsonReader α
  | .object members => (StateT.run reader (.named members)).map Prod.fst
  | .array items =>
    match StateT.run reader (.ordered items) with
    | some (value, .ordered []) => some value
    | _ => none
  | _ => none

end RecordReader

end ApiContract
