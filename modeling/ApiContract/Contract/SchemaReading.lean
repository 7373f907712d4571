import ApiContract.Contract.Basic
import ApiContract.Contract.Reference

/-!
# Reading schemas

A schema of a description becomes an entry of the schema table. The components have their places in
the table before any of them is read, so references lead to places and may be cyclic. A schema that
is nothing but a reference is the place it leads to; any other schema gets a place behind those of
its parts.
-/

namespace ApiContract

/-- Reads a part of a description while filling the schema table. -/
abbrev Compilation := StateT SchemaTable (Except ContractFault)

namespace Compilation

def fail {α : Type} (cause : DocumentFault) : Compilation α :=
  throw (.document cause)

def push (schema : Schema) : Compilation SchemaId := do
  let (id, table) := (← get).push schema
  set table
  return id

end Compilation

/-- What references are resolved against. -/
structure Scope where
  self? : Option String
  components : Components

namespace Scope

/-- The place of a component schema: the n-th name has the n-th place. -/
def schemaId? (scope : Scope) (name : String) : Option SchemaId :=
  (Entries.keys scope.components.schemas).idxOf? name

/-- The place of the schema that a reference names. -/
def schemaOf (scope : Scope) (reference : String) : Except ContractFault SchemaId :=
  match (Reference.nameIn? scope.self? "schemas" reference).bind scope.schemaId? with
  | some id => .ok id
  | none => .error (.reference (.unresolved reference))

/-- The place of a schema that is nothing but a reference. -/
def bareReference? (json : Json) : Option String :=
  match json with
  | .object [_] => Reference.of? json
  | _ => none

end Scope

namespace Schema

/-- The texts of a list; other items are passed over. -/
def texts (json? : Option Json) : List String :=
  match json? with
  | some (.array items) => items.filterMap Json.asString?
  | _ => []

/-- A numeric bound and whether it is exclusive. The exclusive keyword is either a flag for the
plain bound or a bound of its own. -/
def bound (members : Entries Json) (plain exclusive : String) : Option Binary64 × Bool :=
  let plainBound := (Entries.get? members plain).bind Json.asBinary64?
  match Entries.get? members exclusive with
  | some (.bool isExclusive) => (plainBound, isExclusive)
  | some json =>
    match json.asBinary64? with
    | some value => (some value, true)
    | none => (plainBound, false)
  | none => (plainBound, false)

def isSet (members : Entries Json) (keyword : String) : Bool :=
  ((Entries.get? members keyword).bind Json.asBool?).getD false

def readPattern (members : Entries Json) : Except ContractFault (Option Pattern) :=
  match (Entries.get? members "pattern").bind Json.asString? with
  | none => .ok none
  | some text =>
    match Pattern.ofText? text with
    | some pattern => .ok (some pattern)
    | none => .error .pattern

def readConstraints (members : Entries Json) : Except ContractFault Constraints := do
  let count (keyword : String) : Option Nat := (Entries.get? members keyword).bind Json.asNatural?
  let pattern? ← readPattern members
  let (minimum?, exclusiveMinimum) := bound members "minimum" "exclusiveMinimum"
  let (maximum?, exclusiveMaximum) := bound members "maximum" "exclusiveMaximum"
  return {
    minLength? := count "minLength"
    maxLength? := count "maxLength"
    pattern?, minimum?, maximum?, exclusiveMinimum, exclusiveMaximum
    multipleOf? := (Entries.get? members "multipleOf").bind Json.asBinary64?
    minItems? := count "minItems"
    maxItems? := count "maxItems"
    uniqueItems := isSet members "uniqueItems"
    minProperties? := count "minProperties"
    maxProperties? := count "maxProperties" }

def readType (name : String) : Except ContractFault SchemaType :=
  match SchemaType.ofName? name with
  | some type => .ok type
  | none => .error (.document (.unknownType name))

/-- The literals of `enum`, or the only one of `const`. -/
def readLiterals (members : Entries Json) : Option (List Json) :=
  ((Entries.get? members "enum").bind Json.asArray?).or
    ((Entries.get? members "const").map fun literal => [literal])

/-- What a schema says without other schemas, its type apart. -/
def readOwn (members : Entries Json) : Except ContractFault Schema := do
  let constraints ← readConstraints members
  return {
    format? := (Entries.get? members "format").bind Json.asString?
    nullable := isSet members "nullable"
    required := texts (Entries.get? members "required")
    default? := Entries.get? members "default"
    literals? := readLiterals members
    constraints }

/-- Sets the type of a schema. Of several types, null makes it nullable, and more than one other
type makes it a choice between schemas that have nothing but a type. -/
def withType (schema : Schema) (json? : Option Json) : Compilation Schema := do
  match json? with
  | some (.string name) => return { schema with type? := some (← readType name) }
  | some (.array names) =>
    let types ← (names.filterMap Json.asString?).mapM fun name =>
      (readType name : Compilation SchemaType)
    let nullable := schema.nullable || types.contains .null
    match types.filter (· != .null) with
    | [] => return { schema with nullable, type? := some .null }
    | [only] => return { schema with nullable, type? := some only }
    | several =>
      let ids ← several.mapM fun type => Compilation.push (.ofType type)
      return { schema with nullable, anyOf := schema.anyOf ++ ids }
  | _ => return schema

/-- The schemas that a discriminator picks by the name of the component they are. -/
def implicitMapping (scope : Scope) (members : Entries Json) (mapping : Entries SchemaId) :
    Except ContractFault (Entries SchemaId) :=
  let references := ["oneOf", "anyOf"].flatMap fun keyword =>
    (((Entries.get? members keyword).bind Json.asArray?).getD []).filterMap Reference.of?
  references.foldlM
    (fun mapping reference =>
      match Reference.nameIn? scope.self? "schemas" reference with
      | none => .ok mapping
      | some name =>
        if Entries.contains mapping name then .ok mapping
        else (scope.schemaOf reference).map fun id => Entries.insert mapping name id)
    mapping

/-- The schemas that a discriminator picks explicitly, each by a component name or a reference. -/
def explicitMapping (scope : Scope) (json? : Option Json) :
    Except ContractFault (Entries SchemaId) :=
  match json? with
  | some (.object entries) =>
    entries.mapM fun (tag, target) =>
      match target with
      | .string target =>
        match scope.schemaId? target with
        | some id => .ok (tag, id)
        | none => (scope.schemaOf target).map fun id => (tag, id)
      | _ => .error (.document (.mappingNotText tag))
  | _ => .ok []

def readDiscriminator (scope : Scope) (members : Entries Json) (json? : Option Json) :
    Except ContractFault (Option Discriminator) :=
  match json? with
  | some (.object discriminator) =>
    match (Entries.get? discriminator "propertyName").bind Json.asString? with
    | none => .error (.document .discriminatorWithoutProperty)
    | some property => do
      let explicit ← explicitMapping scope (Entries.get? discriminator "mapping")
      let mapping ← implicitMapping scope members explicit
      return some { property, mapping }
  | _ => .ok none

/-- Reads the schemas inside a schema and gives them their places. -/
abbrev PartReader (json : Json) :=
  (child : Json) → sizeOf child < sizeOf json → Compilation SchemaId

/-- A value inside another, if it is there. -/
abbrev PartOf (json : Json) :=
  { member? : Option Json // ∀ member, member? = some member → sizeOf member < sizeOf json }

/-- Reads the schemas of a list, in order. -/
def readList {json : Json} (part : PartReader json) (member? : PartOf json) :
    Compilation (List SchemaId) :=
  match member? with
  | ⟨some (.array items), h⟩ =>
    items.attach.mapM fun ⟨item, hmem⟩ =>
      part item (Nat.lt_trans (Json.sizeOf_lt_of_mem_array hmem) (h _ rfl))
  | _ => return []

/-- Reads the schemas of named properties, in order. -/
def readProperties {json : Json} (part : PartReader json) (member? : PartOf json) :
    Compilation (Entries SchemaId) :=
  match member? with
  | ⟨some (.object properties), h⟩ =>
    properties.attach.mapM fun ⟨(name, property), hmem⟩ => do
      return (name, ← part property (Nat.lt_trans (Json.sizeOf_lt_of_mem_object hmem) (h _ rfl)))
  | _ => return []

/-- The schema for items. -/
def readItems {json : Json} (part : PartReader json) (member? : PartOf json) :
    Compilation (Option SchemaId) :=
  match member? with
  | ⟨some items, h⟩ => some <$> part items (h _ rfl)
  | ⟨none, _⟩ => return none

/-- What is said about further properties. -/
def readExtras {json : Json} (part : PartReader json) (member? : PartOf json) :
    Compilation (Option Extras) :=
  match member? with
  | ⟨some (.bool isAllowed), _⟩ => return some (.allowed isAllowed)
  | ⟨some extras, h⟩ => do return some (.conforming (← part extras (h _ rfl)))
  | ⟨none, _⟩ => return none

/-- The member of an object under a keyword. -/
def memberOf (members : Entries Json) (keyword : String) : PartOf (.object members) :=
  ⟨Entries.get? members keyword, fun _ h => Json.sizeOf_lt_of_get? h⟩

/-- The schema that a reference beside other keywords adds to those that all have to accept. -/
def readSibling (scope : Scope) (json : Json) : Except ContractFault (List SchemaId) :=
  match Reference.of? json with
  | some reference => (scope.schemaOf reference).map fun id => [id]
  | none => .ok []

/-- Reads a schema whose parts are read by `part`. -/
def read (scope : Scope) (json : Json) (part : PartReader json) : Compilation Schema :=
  match json, part with
  | .bool true, _ => return {}
  | .object members, part => do
    let own ← readOwn members
    let sibling ← readSibling scope (.object members)
    let typed ← own.withType (Entries.get? members "type")
    let properties ← readProperties part (memberOf members "properties")
    let items? ← readItems part (memberOf members "items")
    let extras? ← readExtras part (memberOf members "additionalProperties")
    let allOf ← readList part (memberOf members "allOf")
    let oneOf ← readList part (memberOf members "oneOf")
    let anyOf ← readList part (memberOf members "anyOf")
    let discriminator? ← readDiscriminator scope members (Entries.get? members "discriminator")
    return { typed with
      properties, items?, extras?, oneOf, discriminator?
      allOf := sibling ++ allOf
      anyOf := typed.anyOf ++ anyOf }
  | json, _ => Compilation.fail (.notSchema json)

end Schema

/-- Reads a schema and gives it a place. -/
def Scope.placeSchema (scope : Scope) (json : Json) : Compilation SchemaId :=
  match Scope.bareReference? json with
  | some reference => scope.schemaOf reference
  | none => do
    let schema ← Schema.read scope json fun child _ => scope.placeSchema child
    Compilation.push schema
termination_by sizeOf json

/-- Reads the schema of a component, which has its place already. -/
def Scope.readComponent (scope : Scope) (json : Json) : Compilation Schema :=
  Schema.read scope json fun child _ => scope.placeSchema child

/-- Takes the places of all component schemas, then fills them in order. -/
def Scope.readComponents (scope : Scope) : Compilation Unit := do
  let entries := scope.components.schemas
  entries.forM fun _ => modify fun table => table.reserve.2
  entries.zipIdx.forM fun ((_, json), id) => do
    let schema ← scope.readComponent json
    modify fun table => table.set id schema

end ApiContract
