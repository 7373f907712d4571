import ApiContract.Progress
import ApiContract.Schema.Bounds
import ApiContract.Violation.Judgement
import ApiContract.Schema.Merging

/-!
# Applying a schema

A schema judges a value and gives it its type. The keywords of one schema are judged by
`SchemaRules.judge`, which asks for the judgements of other schemas through `Neighbours`: at the
same value, at a child of the value, and for a default. `SchemaRules.apply` ties the knot.

Two things make schemas cyclic. A schema that refers to itself at the same value, without going into
it, says nothing by that reference, so it accepts. A default whose filling in asks for the same
default again would never end, which is a judgement of its own. The recursion ends because either a
new default is filled in, or the value gets smaller, or a new schema joins those that judge the
value.
-/

namespace ApiContract

/-- What the application of schemas depends on. -/
structure SchemaRules where
  schemas : SchemaTable
  formats : FormatRegistry
  /-- Whether objects may have properties that no keyword mentions. -/
  allowsExtras : Bool := true

/-- The judgements of other schemas that a schema may ask for. -/
structure Neighbours (value : Value) where
  /-- Another schema at the same value. -/
  here : SchemaId → Judgement Value
  /-- A schema at a child of the value. -/
  inside : (child : Value) → child ∈ value.children → SchemaId → Judgement Value
  /-- A schema at its own default. -/
  filled : SchemaId → Json → Judgement Value

namespace SchemaRules

/-- How many steps of composition are searched for null. -/
def nullSteps : Nat := 33

/-- Whether null has a place in a schema: it is nullable, of type null or without a type, or its
composition leaves room for null. `steps` bounds the chain of members that is searched. -/
def admitsNull (schemas : SchemaTable) : (steps : Nat) → Schema → Bool
  | steps, schema =>
    if schema.nullable || schema.type? == some .null then
      true
    else if schema.effectiveType?.isSome then
      false
    else
      match steps with
      | 0 => false
      | steps + 1 =>
        let member (id : SchemaId) : Bool :=
          match schemas.get? id with
          | some other => admitsNull schemas steps other
          | none => true
        (schema.oneOf.isEmpty || schema.oneOf.any member) &&
          (schema.anyOf.isEmpty || schema.anyOf.any member) && schema.allOf.all member

/-- A value as the one that a primitive type asks for. A number without a fraction is an integer if
it lies between the ends of the range of 64 bits, both as numbers. -/
def primitive? (type : SchemaType) (value : Value) : Option Value :=
  match type, value with
  | .string, value => if value.isTextual then some value else none
  | .integer, .integer i => some (.integer i)
  | .integer, .number n =>
    if n.isIntegral && (Binary64.ofInt Int64.minValue.toInt).atMost n &&
        n.atMost (.ofInt Int64.maxValue.toInt) then
      some (.integer n.toInt64)
    else none
  | .number, .integer i => some (.integer i)
  | .number, .number n => some (.number n)
  | .boolean, .bool b => some (.bool b)
  | .null, .null => some .null
  | _, _ => none

/-- Refuses a value for one fault. -/
def refuse (fault : SchemaFault) : Judgement Value := .refuse fault.violation

/-- The items of an array, each judged by the schema for items. -/
def judgeItems {value : Value} (near : Neighbours value) (schema : Schema) (items : List Value)
    (h : ∀ item ∈ items, item ∈ value.children) : Judgement Value :=
  match schema.items? with
  | none => .accepted (.array items)
  | some id =>
    let judged := items.attach.zipIdx.map fun (⟨item, hmem⟩, index) =>
      (near.inside item (h item hmem) id).under (.index index)
    (Judgement.all judged).map .array

/-- What is said about a property that is present: the schema that judges it, if any, or that it
should not be there. -/
def propertySchema (rules : SchemaRules) (schema : Schema) (name : String) :
    Except SchemaFault (Option SchemaId) :=
  match Entries.get? schema.properties name with
  | some id => .ok (some id)
  | none =>
    match schema.extras?.getD (.allowed (rules.allowsExtras || schema.isComposed)) with
    | .conforming id => .ok (some id)
    | .allowed true => .ok none
    | .allowed false => .error (.undeclaredProperty name)

/-- The properties that a schema fills in: those declared with a default that are absent and not
required. -/
def missingDefaults (rules : SchemaRules) (schema : Schema) (members : Entries Value) :
    List (String × SchemaId × Json) :=
  schema.properties.filterMap fun (name, id) =>
    if Entries.contains members name || schema.required.contains name then none
    else
      match rules.schemas.get? id with
      | some property => property.default?.map fun literal => (name, id, literal)
      | none => none

/-- The properties of an object: required ones are there, each is judged by its schema, and defaults
are filled in behind the others. -/
def judgeMembers {value : Value} (rules : SchemaRules) (near : Neighbours value) (schema : Schema)
    (members : Entries Value) (h : ∀ member ∈ members, member.2 ∈ value.children) :
    Judgement Value :=
  let absent := (schema.required.filter fun name => !Entries.contains members name).map fun name =>
    (Judgement.refuse (SchemaFault.missingProperty name).violation).under (.key name)
  let present := members.attach.map fun ⟨(name, property), hmem⟩ =>
    let judged :=
      match rules.propertySchema schema name with
      | .ok (some id) => near.inside property (h _ hmem) id
      | .ok none => .accepted property
      | .error fault => refuse fault
    (judged.under (.key name)).map fun typed => (name, typed)
  let filled := (rules.missingDefaults schema members).map fun (name, id, literal) =>
    ((near.filled id literal).under (.key name)).map fun typed => (name, typed)
  (Judgement.all (absent ++ present ++ filled)).map .object

/-- The kind of a value. -/
def judgeType (rules : SchemaRules) (schema : Schema) (value : Value) (near : Neighbours value) :
    Judgement Value :=
  match schema.effectiveType? with
  | none => .accepted value
  | some .array =>
    match value, near with
    | .array items, near => judgeItems near schema items fun _ hmem => hmem
    | value, _ => refuse (.wrongType .array value.kind)
  | some .object =>
    match value, near with
    | .object members, near =>
      judgeMembers rules near schema members fun _ hmem => List.mem_map.2 ⟨_, hmem, rfl⟩
    | value, _ => refuse (.wrongType .object value.kind)
  | some type =>
    match primitive? type value with
    | some typed => .accepted typed
    | none => refuse (.wrongType type value.kind)

/-- The faults of a value of the right kind: violated bounds, then a value that is not listed. -/
def boundFaults (schema : Schema) (value : Value) : List SchemaFault :=
  let unlisted :=
    match schema.literals? with
    | some literals => if literals.any value.matchesLiteral then [] else [.notListed value.toJson]
    | none => []
  (schema.constraints.excesses value).map .excess ++ unlisted

/-- The format of a value that is no container. -/
def judgeFormat (rules : SchemaRules) (schema : Schema) (typed : Value) : Judgement Value :=
  match schema.format? with
  | some format =>
    if typed.isContainer then .accepted typed
    else
      match rules.formats.cast format typed with
      | .ok value => .accepted value
      | .error fault => refuse (.format format fault)
  | none => .accepted typed

/-- The schema on its own, without those that it is composed of. -/
def judgeOwn (rules : SchemaRules) (schema : Schema) (value : Value) (near : Neighbours value) :
    Judgement Value :=
  (rules.judgeType schema value near).andThen fun typed =>
    match boundFaults schema value with
    | [] => rules.judgeFormat schema typed
    | faults => .rejected (faults.map SchemaFault.violation)

/-- Exactly one of several schemas has to accept. -/
def judgeOneOf (here : SchemaId → Judgement Value) (ids : List SchemaId) : Judgement Value :=
  match Judgement.gather (ids.map here) with
  | none => .unending
  | some ([value], _) => .accepted value
  | some ([], _) => refuse .noneOfOne
  | some (values, _) => refuse (.manyOfOne values.length)

/-- The first of several schemas that accepts counts. -/
def judgeAnyOf (here : SchemaId → Judgement Value) (ids : List SchemaId) : Judgement Value :=
  Judgement.firstAccepted here SchemaFault.noneOfAny.violation ids

/-- The schema that the text of a property picks. -/
def judgeTagged (here : SchemaId → Judgement Value) (discriminator : Discriminator)
    (value : Value) : Judgement Value :=
  match value with
  | .object members =>
    match (Entries.get? members discriminator.property).bind Value.asString? with
    | none => refuse (.noTag discriminator.property)
    | some tag =>
      match Entries.get? discriminator.mapping tag with
      | some id => here id
      | none => refuse (.unknownTag tag)
  | value => refuse (.wrongType .object value.kind)

/-- The judgements of the alternatives of a schema. -/
def judgeAlternatives (schema : Schema) (value : Value) (here : SchemaId → Judgement Value) :
    List (Judgement Value) :=
  let oneOf := if schema.oneOf.isEmpty then [] else [judgeOneOf here schema.oneOf]
  let anyOf := if schema.anyOf.isEmpty then [] else [judgeAnyOf here schema.anyOf]
  match schema.discriminator? with
  | some discriminator =>
    if schema.oneOf.isEmpty && schema.anyOf.isEmpty then []
    else [judgeTagged here discriminator value]
  | none => oneOf ++ anyOf

/-- All that a schema says about a value, apart from what it says about null. -/
def judgeParts (rules : SchemaRules) (schema : Schema) (value : Value) (near : Neighbours value) :
    Judgement Value :=
  let parts := rules.judgeOwn schema value near ::
    judgeAlternatives schema value near.here ++ schema.allOf.map near.here
  (Judgement.all parts).map (Value.mergeAll value)

/-- A schema at a value. Null is settled first, unless a composition has to look at it. -/
def judge (rules : SchemaRules) (schema : Schema) (value : Value) (near : Neighbours value) :
    Judgement Value :=
  if value.isNull then
    if schema.nullable || schema.type? == some .null then .accepted .null
    else if !admitsNull rules.schemas nullSteps schema then refuse .nullNotAllowed
    else if !schema.isComposed then .accepted .null
    else rules.judgeParts schema value near
  else
    rules.judgeParts schema value near

/-- Applies a schema to a value. `fills` are the schemas whose default is being filled in and
`trail` those that are judging this very value. -/
def applyAt (rules : SchemaRules) (fills trail : List SchemaId) (id : SchemaId) (value : Value) :
    Judgement Value :=
  match _ : rules.schemas.get? id with
  | none => .accepted value
  | some schema =>
    if _ : id ∈ trail then
      .accepted value
    else
      rules.judge schema value {
        here := fun member => applyAt rules fills (id :: trail) member value
        inside := fun child _ member => applyAt rules fills [] member child
        filled := fun property literal =>
          if _ : property ∈ rules.schemas.ids ∧ property ∉ fills then
            applyAt rules (property :: fills) [] property (Value.ofJson literal)
          else
            .unending }
termination_by (unseen rules.schemas.ids fills, sizeOf value, unseen rules.schemas.ids trail)
decreasing_by
  · apply Prod.Lex.right
    apply Prod.Lex.right
    exact unseen_cons_lt (SchemaTable.mem_ids_of_get? ‹_›) ‹_›
  · apply Prod.Lex.right
    apply Prod.Lex.left
    exact Value.sizeOf_lt_of_mem_children ‹_›
  · apply Prod.Lex.left
    exact unseen_cons_lt (And.left ‹_›) (And.right ‹_›)

/-- Applies a schema to a value. -/
def apply (rules : SchemaRules) (id : SchemaId) (value : Value) : Judgement Value :=
  rules.applyAt [] [] id value

end SchemaRules

end ApiContract
