import ApiContract.Proofs.Application
import ApiContract.Format.Standard

/-!
# Conformance to schemas without alternatives

A table that uses neither alternatives nor defaults only ever adds demands: a value has to satisfy
a schema, all schemas that it includes, and inside the value the schemas that these declare.
`Conforms` states this as a relation which does not mention the order in which schemas are visited.
Applying a schema visits the included schemas depth first and passes over those that already judge
the value.  The main statement is that it accepts exactly the values that conform, however the
inclusions are tied into cycles.
-/

namespace ApiContract

inductive Value.NullFree : Value → Prop
  | intro {value : Value} (notNull : value ≠ .null)
      (children : ∀ child ∈ value.children, NullFree child) : NullFree value

theorem Value.NullFree.ne_null {value : Value} (hfree : value.NullFree) : value ≠ .null := by
  obtain ⟨hnull, -⟩ := hfree
  exact hnull

theorem Value.nullFree_object {members : Entries Value} :
    (Value.object members).NullFree ↔ ∀ member ∈ members, member.2.NullFree := by
  constructor
  · rintro ⟨-, hchildren⟩ member hmem
    exact hchildren member.2 (List.mem_map_of_mem hmem)
  · intro hmembers
    refine ⟨by simp, fun child hchild => ?_⟩
    obtain ⟨member, hmem, rfl⟩ := List.mem_map.1 hchild
    exact hmembers member hmem

theorem Value.nullFree_integer (i : Int64) : (Value.integer i).NullFree :=
  ⟨by simp, by simp [Value.children]⟩

namespace SchemaTable

/-- A schema lists another one in its `allOf`. -/
def Includes (table : SchemaTable) (whole part : SchemaId) : Prop :=
  ∃ schema, table.get? whole = some schema ∧ part ∈ schema.allOf

/-- A schema that is included, in any number of steps, or the schema at the place itself. -/
def Conjunct (table : SchemaTable) (id : SchemaId) (schema : Schema) : Prop :=
  ∃ part, Relation.ReflTransGen table.Includes id part ∧ table.get? part = some schema

/-- No schema of the table offers alternatives or declares a default. -/
structure IsConjunctive (table : SchemaTable) : Prop where
  oneOf : ∀ id schema, table.get? id = some schema → schema.oneOf = []
  anyOf : ∀ id schema, table.get? id = some schema → schema.anyOf = []
  default : ∀ id schema, table.get? id = some schema → schema.default? = none

theorem forall_get?_iff {table : SchemaTable} {holds : Schema → Prop} :
    (∀ id schema, table.get? id = some schema → holds schema) ↔
      ∀ schema ∈ table.schemas.toList, holds schema := by
  constructor
  · intro hall schema hmem
    obtain ⟨id, hid⟩ := List.mem_iff_getElem?.1 hmem
    refine hall id schema ?_
    rw [get?, ← hid, Array.getElem?_toList]
  · intro hall id schema hid
    exact hall schema (Array.mem_toList_iff.2 (Array.mem_of_getElem? hid))

theorem isConjunctive_iff {table : SchemaTable} :
    table.IsConjunctive ↔ ∀ schema ∈ table.schemas.toList,
      schema.oneOf = [] ∧ schema.anyOf = [] ∧ schema.default? = none := by
  rw [← forall_get?_iff]
  constructor
  · rintro ⟨honeOf, hanyOf, hdefault⟩ id schema hget
    exact ⟨honeOf id schema hget, hanyOf id schema hget, hdefault id schema hget⟩
  · intro hall
    exact ⟨fun id schema hget => (hall id schema hget).1,
      fun id schema hget => (hall id schema hget).2.1,
      fun id schema hget => (hall id schema hget).2.2⟩

end SchemaTable

/-- The value as a schema's type takes it, if it is of the right kind. -/
def Schema.typed? (schema : Schema) (value : Value) : Option Value :=
  match schema.effectiveType? with
  | none => some value
  | some .array => if value.kind = .array then some value else none
  | some .object => if value.kind = .object then some value else none
  | some type => SchemaRules.primitive? type value

/-- What a schema demands of the values directly inside a value. -/
inductive Schema.Asks (schema : Schema) : (value : Value) → SchemaId → (child : Value) → Prop
  | item {items : List Value} {child : Value} {id : SchemaId}
      (hitems : schema.items? = some id) (hmem : child ∈ items) : Asks schema (.array items) id child
  | declared {members : Entries Value} {name : String} {child : Value} {id : SchemaId}
      (hmem : (name, child) ∈ members) (hdeclared : Entries.get? schema.properties name = some id) :
      Asks schema (.object members) id child
  | further {members : Entries Value} {name : String} {child : Value} {id : SchemaId}
      (hmem : (name, child) ∈ members) (hundeclared : Entries.get? schema.properties name = none)
      (hextras : schema.extras? = some (.conforming id)) : Asks schema (.object members) id child

namespace SchemaRules

/-- Properties that a schema neither declares nor has a schema for may be there. -/
def PermitsExtras (rules : SchemaRules) (schema : Schema) : Prop :=
  schema.extras? = some (.allowed true) ∨
    (schema.extras? = none ∧ (rules.allowsExtras ∨ schema.isComposed))

/-- A schema accepts a value as far as its own keywords go, apart from the values inside. -/
structure AcceptsAlone (rules : SchemaRules) (schema : Schema) (value : Value) : Prop where
  kind : (schema.typed? value).isSome
  bounds : schema.constraints.excesses value = []
  listed : ∀ literals, schema.literals? = some literals →
    ∃ literal ∈ literals, value.matchesLiteral literal
  format : ∀ typed format, schema.typed? value = some typed → schema.format? = some format →
    typed.isContainer = false → ∃ result, rules.formats.cast format typed = .ok result
  required : ∀ members, value = .object members →
    ∀ name ∈ schema.required, Entries.contains members name
  extras : ∀ members, value = .object members → schema.effectiveType? = some .object →
    ∀ name ∈ Entries.keys members, Entries.get? schema.properties name = none →
      (∃ id, schema.extras? = some (.conforming id)) ∨ rules.PermitsExtras schema

/-- Every conjunct of a schema accepts the value on its own, and the values inside conform to what
the conjuncts demand of them. -/
inductive Conforms (rules : SchemaRules) : SchemaId → Value → Prop
  | intro {id : SchemaId} {value : Value}
      (alone : ∀ schema, rules.schemas.Conjunct id schema → rules.AcceptsAlone schema value)
      (inside : ∀ schema, rules.schemas.Conjunct id schema →
        ∀ part child, schema.Asks value part child → Conforms rules part child) :
      Conforms rules id value

/-! ## One schema on its own -/

variable {rules : SchemaRules} {fills trail : List SchemaId} {id : SchemaId} {value : Value}
  {schema : Schema}

theorem boundFaults_eq_nil_iff :
    boundFaults schema value = [] ↔
      schema.constraints.excesses value = [] ∧
        ∀ literals, schema.literals? = some literals →
          ∃ literal ∈ literals, value.matchesLiteral literal := by
  unfold boundFaults
  cases schema.literals? <;> simp

theorem isAccepted_judgeFormat_iff {typed : Value} :
    (rules.judgeFormat schema typed).isAccepted ↔
      ∀ format, schema.format? = some format → typed.isContainer = false →
        ∃ result, rules.formats.cast format typed = .ok result := by
  unfold judgeFormat
  cases schema.format? with
  | none => simp [Judgement.isAccepted]
  | some format =>
      cases typed.isContainer with
      | true => simp [Judgement.isAccepted]
      | false =>
          cases hcast : rules.formats.cast format typed <;>
            simp [hcast, Judgement.isAccepted, refuse, Judgement.refuse]

/-- What the judgement of a property comes to, where leaving the property does and refusing it does
not. -/
theorem judgeMember_iff {member : String × Value} (holds : Judgement Value → Prop)
    (hleft : holds (.accepted member.2)) (hrefused : ∀ fault, ¬ holds (refuse fault)) :
    holds (rules.judgeMember fills schema member) ↔
      (∀ id, Entries.get? schema.properties member.1 = some id →
        holds (rules.applyAt fills [] id member.2)) ∧
      (Entries.get? schema.properties member.1 = none →
        (∀ id, schema.extras? = some (.conforming id) →
          holds (rules.applyAt fills [] id member.2)) ∧
        ((∃ id, schema.extras? = some (.conforming id)) ∨ rules.PermitsExtras schema)) := by
  unfold judgeMember propertySchema
  cases Entries.get? schema.properties member.1 with
  | some id => simp
  | none =>
      cases hextras : schema.extras? with
      | some extras =>
          cases extras with
          | conforming id => simp
          | allowed isAllowed => cases isAllowed <;> simp [PermitsExtras, hextras, hleft, hrefused]
      | none =>
          cases hallows : rules.allowsExtras <;> cases hcomposed : schema.isComposed <;>
            simp [PermitsExtras, hextras, hallows, hcomposed, hleft, hrefused]

theorem isAccepted_judgeMember_iff {member : String × Value} :
    (rules.judgeMember fills schema member).isAccepted ↔
      (∀ id, Entries.get? schema.properties member.1 = some id →
        (rules.applyAt fills [] id member.2).isAccepted) ∧
      (Entries.get? schema.properties member.1 = none →
        (∀ id, schema.extras? = some (.conforming id) →
          (rules.applyAt fills [] id member.2).isAccepted) ∧
        ((∃ id, schema.extras? = some (.conforming id)) ∨ rules.PermitsExtras schema)) :=
  judgeMember_iff (fun judgement => judgement.isAccepted) rfl fun _ => Bool.false_ne_true

theorem isAccepted_judgeItems_iff {items : List Value}
    {hitems : ∀ item ∈ items, item ∈ value.children} :
    (judgeItems (rules.neighbours fills trail value) schema items hitems).isAccepted ↔
      ∀ id, schema.items? = some id → ∀ item ∈ items,
        (rules.applyAt fills [] id item).isAccepted := by
  cases hschema : schema.items? with
  | none => simp [judgeItems_of_none hschema, Judgement.isAccepted]
  | some id =>
      simp [Judgement.isAccepted_iff, judgeItems_eq_accepted_iff hschema,
        Judgement.exists_forall₂_iff]

theorem isAccepted_judgeMembers_iff_filled {members : Entries Value}
    {hmembers : ∀ member ∈ members, member.2 ∈ value.children} :
    (judgeMembers rules (rules.neighbours fills trail value) schema members hmembers).isAccepted ↔
      (∀ name ∈ schema.required, Entries.contains members name) ∧
        (∀ member ∈ members, (rules.judgeMember fills schema member).isAccepted) ∧
        ∀ missing ∈ rules.missingDefaults schema members,
          (rules.fillAt fills missing.2.1 missing.2.2).isAccepted := by
  have hpresent : (∃ present : Entries Value, List.Forall₂ (fun member result =>
      rules.judgeMember fills schema member = .accepted result.2 ∧ member.1 = result.1)
      members present) ↔ ∀ member ∈ members, (rules.judgeMember fills schema member).isAccepted := by
    rw [Judgement.exists_forall₂_iff]
    simp [Judgement.isAccepted_iff]
  have hfilled : (∃ filled : Entries Value, List.Forall₂ (fun missing result =>
      rules.fillAt fills missing.2.1 missing.2.2 = .accepted result.2 ∧ missing.1 = result.1)
      (rules.missingDefaults schema members) filled) ↔
      ∀ missing ∈ rules.missingDefaults schema members,
        (rules.fillAt fills missing.2.1 missing.2.2).isAccepted := by
    rw [Judgement.exists_forall₂_iff]
    simp [Judgement.isAccepted_iff]
  rw [← hpresent, ← hfilled]
  simp [Judgement.isAccepted_iff, judgeMembers_eq_accepted_iff]

theorem isAccepted_judgeMembers_iff {members : Entries Value}
    {hmembers : ∀ member ∈ members, member.2 ∈ value.children}
    (hdefaults : rules.missingDefaults schema members = []) :
    (judgeMembers rules (rules.neighbours fills trail value) schema members hmembers).isAccepted ↔
      (∀ name ∈ schema.required, Entries.contains members name) ∧
        ∀ member ∈ members, (rules.judgeMember fills schema member).isAccepted := by
  rw [isAccepted_judgeMembers_iff_filled, hdefaults]
  simp

/-! ## The type and what it looks into -/

variable {near : Neighbours value}

theorem judgeType_eq_accepted_iff_of_primitive {type : SchemaType} {typed : Value}
    (htype : schema.effectiveType? = some type) (harray : type ≠ .array)
    (hobject : type ≠ .object) :
    rules.judgeType schema value near = .accepted typed ↔ primitive? type value = some typed := by
  cases hprimitive : primitive? type value with
  | some found => simp [judgeType_of_primitive? htype hprimitive]
  | none =>
      have hrefuses : type.Refuses value := ⟨fun _ _ => harray, fun _ _ => hobject, hprimitive⟩
      simp [judgeType_of_refuses htype hrefuses, refuse, Judgement.refuse]

theorem typed?_of_primitive {type : SchemaType} (htype : schema.effectiveType? = some type)
    (harray : type ≠ .array) (hobject : type ≠ .object) :
    schema.typed? value = primitive? type value := by
  unfold Schema.typed?
  rw [htype]
  cases type <;> simp_all

/-- Without a type, declared or implied, no keyword looks inside the value. -/
theorem nothing_inside_of_none (htype : schema.effectiveType? = none) :
    schema.properties = [] ∧ schema.required = [] ∧ schema.extras? = none ∧
      schema.items? = none := by
  unfold Schema.effectiveType? at htype
  split at htype
  · simp at htype
  · split at htype
    · simp at htype
    · split at htype <;> simp_all

theorem not_asks_of_none (htype : schema.effectiveType? = none) {part : SchemaId}
    {child : Value} : ¬ schema.Asks value part child := by
  obtain ⟨hproperties, -, hextras, hitems⟩ := nothing_inside_of_none htype
  intro hasks
  cases hasks <;> simp_all

theorem not_asks_of_primitive? {type : SchemaType} {typed : Value}
    (htyped : primitive? type value = some typed) {part : SchemaId} {child : Value} :
    ¬ schema.Asks value part child := by
  intro hasks
  cases hasks <;> cases type <;> simp [primitive?, Value.isTextual] at htyped

theorem ne_object_of_primitive? {type : SchemaType} {typed : Value}
    (htyped : primitive? type value = some typed) (members : Entries Value) :
    value ≠ .object members := by
  rintro rfl
  cases type <;> simp [primitive?, Value.isTextual] at htyped

theorem eq_array_of_judgeType {typed : Value} (htype : schema.effectiveType? = some .array)
    (hjudge : rules.judgeType schema value near = .accepted typed) :
    ∃ items, value = .array items := by
  by_contra hnot
  have hrefuses : SchemaType.array.Refuses value := ⟨by simpa using hnot, by simp, rfl⟩
  rw [judgeType_of_refuses htype hrefuses] at hjudge
  cases hjudge

theorem eq_object_of_judgeType {typed : Value} (htype : schema.effectiveType? = some .object)
    (hjudge : rules.judgeType schema value near = .accepted typed) :
    ∃ members, value = .object members := by
  by_contra hnot
  have hrefuses : SchemaType.object.Refuses value := ⟨by simp, by simpa using hnot, rfl⟩
  rw [judgeType_of_refuses htype hrefuses] at hjudge
  cases hjudge

/-- The ways in which the type of a schema accepts a value. -/
inductive TypesAs (rules : SchemaRules) (fills trail : List SchemaId) (schema : Schema) :
    (value typed : Value) → Prop
  | untyped {value : Value} (htype : schema.effectiveType? = none) :
      TypesAs rules fills trail schema value value
  | items {items : List Value} {typed : Value} (htype : schema.effectiveType? = some .array)
      (hitems : judgeItems (rules.neighbours fills trail (.array items)) schema items
        (fun _ hmem => hmem) = .accepted typed) :
      TypesAs rules fills trail schema (.array items) typed
  | members {members : Entries Value} {typed : Value} (htype : schema.effectiveType? = some .object)
      (hmembers : judgeMembers rules (rules.neighbours fills trail (.object members)) schema members
        (fun _ hmem => List.mem_map.2 ⟨_, hmem, rfl⟩) = .accepted typed) :
      TypesAs rules fills trail schema (.object members) typed
  | primitive {type : SchemaType} {value typed : Value} (htype : schema.effectiveType? = some type)
      (harray : type ≠ .array) (hobject : type ≠ .object)
      (hprimitive : primitive? type value = some typed) :
      TypesAs rules fills trail schema value typed

theorem typesAs_of_judgeType {typed : Value}
    (htyped : rules.judgeType schema value (rules.neighbours fills trail value) = .accepted typed) :
    rules.TypesAs fills trail schema value typed := by
  cases schema.typeView value with
  | untyped htype =>
      rw [judgeType_of_none htype] at htyped
      obtain rfl := Judgement.accepted.inj htyped
      exact .untyped htype
  | items htype => exact .items htype ((judgeType_array htype).symm.trans htyped)
  | members htype => exact .members htype ((judgeType_object htype).symm.trans htyped)
  | primitive htype harray hobject hprimitive =>
      rw [judgeType_of_primitive? htype hprimitive] at htyped
      obtain rfl := Judgement.accepted.inj htyped
      exact .primitive htype harray hobject hprimitive
  | wrong htype hrefuses =>
      rw [judgeType_of_refuses htype hrefuses] at htyped
      cases htyped

theorem eq_array_of_typed? (htype : schema.effectiveType? = some .array)
    (hkind : (schema.typed? value).isSome) : ∃ items, value = .array items := by
  cases value with
  | array items => exact ⟨items, rfl⟩
  | _ => simp [Schema.typed?, htype, Value.kind] at hkind

theorem eq_object_of_typed? (htype : schema.effectiveType? = some .object)
    (hkind : (schema.typed? value).isSome) : ∃ members, value = .object members := by
  cases value with
  | object members => exact ⟨members, rfl⟩
  | _ => simp [Schema.typed?, htype, Value.kind] at hkind

theorem isAccepted_judgeFormat_of_isContainer {typed : Value}
    (hcontainer : typed.isContainer = true) : (rules.judgeFormat schema typed).isAccepted :=
  isAccepted_judgeFormat_iff.2 fun _ _ hnot => by simp [hcontainer] at hnot

theorem exists_array_of_judgeItems {items : List Value} {typed : Value}
    {hitems : ∀ item ∈ items, item ∈ value.children}
    (htyped : judgeItems near schema items hitems = .accepted typed) :
    ∃ results, typed = .array results := by
  unfold judgeItems at htyped
  split at htyped
  · exact ⟨items, (Judgement.accepted.inj htyped).symm⟩
  · obtain ⟨results, -, rfl⟩ := Judgement.map_eq_accepted_iff.1 htyped
    exact ⟨results, rfl⟩

theorem isContainer_of_judgeItems {items : List Value} {typed : Value}
    {hitems : ∀ item ∈ items, item ∈ value.children}
    (htyped : judgeItems near schema items hitems = .accepted typed) :
    typed.isContainer = true := by
  obtain ⟨results, rfl⟩ := exists_array_of_judgeItems htyped
  rfl

theorem isContainer_of_judgeMembers {members : Entries Value} {typed : Value}
    {hmembers : ∀ member ∈ members, member.2 ∈ value.children}
    (htyped : judgeMembers rules near schema members hmembers = .accepted typed) :
    typed.isContainer = true := by
  obtain ⟨results, -, rfl⟩ := Judgement.map_eq_accepted_iff.1 htyped
  rfl

/-- The value has the type of the schema, and what the type looks into is accepted. -/
structure MeetsType (rules : SchemaRules) (fills : List SchemaId) (schema : Schema)
    (value : Value) : Prop where
  kind : (schema.typed? value).isSome
  format : ∀ typed, schema.typed? value = some typed → (rules.judgeFormat schema typed).isAccepted
  required : ∀ members, value = .object members →
    ∀ name ∈ schema.required, Entries.contains members name
  extras : ∀ members, value = .object members → schema.effectiveType? = some .object →
    ∀ name ∈ Entries.keys members, Entries.get? schema.properties name = none →
      (∃ id, schema.extras? = some (.conforming id)) ∨ rules.PermitsExtras schema
  inside : ∀ part child, schema.Asks value part child →
    (rules.applyAt fills [] part child).isAccepted

theorem meetsType_array_iff {items : List Value} (htype : schema.effectiveType? = some .array) :
    rules.MeetsType fills schema (.array items) ↔
      ∀ id, schema.items? = some id → ∀ item ∈ items,
        (rules.applyAt fills [] id item).isAccepted := by
  have htyped : schema.typed? (.array items) = some (.array items) := by
    simp [Schema.typed?, htype, Value.kind]
  constructor
  · intro hmeets id hid item hitem
    exact hmeets.inside id item (.item hid hitem)
  · intro hitems
    refine ⟨by simp [htyped], ?_, by simp, by simp, ?_⟩
    · intro typed heq
      obtain rfl := Option.some.inj (htyped.symm.trans heq)
      exact isAccepted_judgeFormat_of_isContainer rfl
    · intro part child hasks
      cases hasks with
      | item hid hmem => exact hitems _ hid _ hmem

theorem meetsType_object_iff {members : Entries Value}
    (htype : schema.effectiveType? = some .object) :
    rules.MeetsType fills schema (.object members) ↔
      (∀ name ∈ schema.required, Entries.contains members name) ∧
        ∀ member ∈ members, (rules.judgeMember fills schema member).isAccepted := by
  have htyped : schema.typed? (.object members) = some (.object members) := by
    simp [Schema.typed?, htype, Value.kind]
  constructor
  · intro hmeets
    refine ⟨hmeets.required members rfl, fun member hmem => ?_⟩
    refine isAccepted_judgeMember_iff.2 ⟨?_, fun hnone => ⟨?_, ?_⟩⟩
    · intro id hid
      exact hmeets.inside id member.2 (.declared hmem hid)
    · intro id hid
      exact hmeets.inside id member.2 (.further hmem hnone hid)
    · exact hmeets.extras members rfl htype member.1 (List.mem_map_of_mem hmem) hnone
  · rintro ⟨hrequired, hmembers⟩
    have hmember := fun member hmem => isAccepted_judgeMember_iff.1 (hmembers member hmem)
    refine ⟨by simp [htyped], ?_, ?_, ?_, ?_⟩
    · intro typed heq
      obtain rfl := Option.some.inj (htyped.symm.trans heq)
      exact isAccepted_judgeFormat_of_isContainer rfl
    · intro _ heq
      obtain rfl := Value.object.inj heq
      exact hrequired
    · intro _ heq _ name hname hnone
      obtain rfl := Value.object.inj heq
      obtain ⟨member, hmem, rfl⟩ := List.mem_map.1 hname
      exact ((hmember member hmem).2 hnone).2
    · intro part child hasks
      cases hasks with
      | declared hmem hid => exact (hmember _ hmem).1 _ hid
      | further hmem hnone hid => exact ((hmember _ hmem).2 hnone).1 _ hid

theorem meetsType_iff_of_none (htype : schema.effectiveType? = none) :
    rules.MeetsType fills schema value ↔ (rules.judgeFormat schema value).isAccepted := by
  have htyped : schema.typed? value = some value := by simp [Schema.typed?, htype]
  constructor
  · intro hmeets
    exact hmeets.format value htyped
  · intro hformat
    obtain ⟨-, hrequired, -⟩ := nothing_inside_of_none htype
    exact ⟨by simp [htyped], by simpa [htyped] using hformat, by simp [hrequired], by simp [htype],
      fun part child hasks => absurd hasks (not_asks_of_none htype)⟩

theorem typed?_of_primitive? {type : SchemaType} {typed : Value}
    (htype : schema.effectiveType? = some type) (hprimitive : primitive? type value = some typed) :
    schema.typed? value = some typed := by
  cases type with
  | array => cases hprimitive
  | object => cases hprimitive
  | _ => simpa [Schema.typed?, htype] using hprimitive

theorem typed?_of_refuses {type : SchemaType} (htype : schema.effectiveType? = some type)
    (hrefuses : type.Refuses value) : schema.typed? value = none := by
  cases type with
  | array =>
      rw [← Option.not_isSome_iff_eq_none]
      intro hkind
      obtain ⟨items, heq⟩ := eq_array_of_typed? htype hkind
      exact hrefuses.array items heq rfl
  | object =>
      rw [← Option.not_isSome_iff_eq_none]
      intro hkind
      obtain ⟨members, heq⟩ := eq_object_of_typed? htype hkind
      exact hrefuses.object members heq rfl
  | _ => simpa [Schema.typed?, htype] using hrefuses.primitive

theorem meetsType_iff_of_primitive? {type : SchemaType} {typed : Value}
    (htype : schema.effectiveType? = some type) (hprimitive : primitive? type value = some typed) :
    rules.MeetsType fills schema value ↔ (rules.judgeFormat schema typed).isAccepted := by
  have htyped := typed?_of_primitive? htype hprimitive
  constructor
  · exact fun hmeets => hmeets.format typed htyped
  · intro hformat
    refine ⟨by simp [htyped], by simpa [htyped] using hformat, ?_, ?_, ?_⟩
    · intro members heq
      exact absurd heq (ne_object_of_primitive? hprimitive members)
    · intro members heq
      exact absurd heq (ne_object_of_primitive? hprimitive members)
    · intro part child hasks
      exact absurd hasks (not_asks_of_primitive? hprimitive)

theorem judgeType_isAccepted_iff_meetsType
    (hdefaults : ∀ members, rules.missingDefaults schema members = []) :
    (∃ typed, rules.judgeType schema value (rules.neighbours fills trail value) =
        .accepted typed ∧ (rules.judgeFormat schema typed).isAccepted) ↔
      rules.MeetsType fills schema value := by
  cases schema.typeView value with
  | untyped htype => simp [meetsType_iff_of_none htype, judgeType_of_none htype]
  | items htype =>
      rw [meetsType_array_iff htype, judgeType_array htype]
      refine Iff.trans (exists_congr fun typed => and_iff_left_of_imp fun hjudge => ?_)
        (Judgement.isAccepted_iff.symm.trans isAccepted_judgeItems_iff)
      exact isAccepted_judgeFormat_of_isContainer (isContainer_of_judgeItems hjudge)
  | members htype =>
      rw [meetsType_object_iff htype, judgeType_object htype]
      refine Iff.trans (exists_congr fun typed => and_iff_left_of_imp fun hjudge => ?_)
        (Judgement.isAccepted_iff.symm.trans (isAccepted_judgeMembers_iff (hdefaults _)))
      exact isAccepted_judgeFormat_of_isContainer (isContainer_of_judgeMembers hjudge)
  | primitive htype _ _ hprimitive =>
      simp [judgeType_of_primitive? htype hprimitive, meetsType_iff_of_primitive? htype hprimitive]
  | wrong htype hrefuses =>
      rw [judgeType_of_refuses htype hrefuses]
      refine iff_of_false (by simp [refuse, Judgement.refuse]) fun hmeets => ?_
      simpa [typed?_of_refuses htype hrefuses] using hmeets.kind

theorem isAccepted_judgeOwn :
    (rules.judgeOwn schema value near).isAccepted ↔
      (∃ typed, rules.judgeType schema value near = .accepted typed ∧
        (rules.judgeFormat schema typed).isAccepted) ∧ boundFaults schema value = [] := by
  unfold judgeOwn
  simp only [Judgement.isAccepted_iff, Judgement.andThen_eq_accepted_iff]
  cases boundFaults schema value with
  | nil =>
      simp only [and_true]
      rw [exists_comm]
      simp only [exists_and_left]
  | cons fault faults => simp

theorem isAccepted_judgeOwn_iff
    (hdefaults : ∀ members, rules.missingDefaults schema members = []) :
    (rules.judgeOwn schema value (rules.neighbours fills trail value)).isAccepted ↔
      rules.AcceptsAlone schema value ∧
        ∀ part child, schema.Asks value part child →
          (rules.applyAt fills [] part child).isAccepted := by
  have hown : (rules.judgeOwn schema value (rules.neighbours fills trail value)).isAccepted ↔
      rules.MeetsType fills schema value ∧ boundFaults schema value = [] := by
    rw [← judgeType_isAccepted_iff_meetsType hdefaults, isAccepted_judgeOwn]
  rw [hown, boundFaults_eq_nil_iff]
  constructor
  · rintro ⟨hmeets, hbounds, hlisted⟩
    exact ⟨⟨hmeets.kind, hbounds, hlisted, fun typed format htyped =>
      isAccepted_judgeFormat_iff.1 (hmeets.format typed htyped) format,
      hmeets.required, hmeets.extras⟩, hmeets.inside⟩
  · rintro ⟨halone, hinside⟩
    exact ⟨⟨halone.kind, fun typed htyped => isAccepted_judgeFormat_iff.2 fun format =>
      halone.format typed format htyped, halone.required, halone.extras, hinside⟩,
      halone.bounds, halone.listed⟩

/-! ## A schema and those that it includes -/

theorem isAccepted_judge_iff (hnull : value ≠ .null) (hhere : ∀ id, (near.here id).IsExplained)
    (honeOf : schema.oneOf = []) (hanyOf : schema.anyOf = []) :
    (rules.judge schema value near).isAccepted ↔
      (rules.judgeOwn schema value near).isAccepted ∧
        ∀ part ∈ schema.allOf, (near.here part).isAccepted := by
  have halternatives : judgeAlternatives schema value near.here = [] := by
    cases hdiscriminator : schema.discriminator? with
    | none => simp [judgeAlternatives_of_none hdiscriminator, honeOf, hanyOf]
    | some discriminator =>
        simp [judgeAlternatives_of_discriminator hdiscriminator, honeOf, hanyOf]
  have hexplained : ∀ judgement ∈
      rules.judgeOwn schema value near :: schema.allOf.map near.here, judgement.IsExplained := by
    intro judgement hmem
    rcases List.mem_cons.1 hmem with rfl | hmem
    · exact isExplained_judgeOwn
    · obtain ⟨part, -, rfl⟩ := List.mem_map.1 hmem
      exact hhere part
  rw [judge_of_ne_null hnull]
  simp [judgeParts, halternatives, Judgement.isAccepted_all hexplained]

end SchemaRules

namespace SchemaTable

/-- A schema is included through schemas that are not on the trail. -/
inductive Reaches (table : SchemaTable) (trail : List SchemaId) : SchemaId → SchemaId → Prop
  | here {id : SchemaId} (hnew : id ∉ trail) : Reaches table trail id id
  | through {id next part : SchemaId} (hnew : id ∉ trail) (hincludes : table.Includes id next)
      (hrest : Reaches table trail next part) : Reaches table trail id part

variable {table : SchemaTable} {trail : List SchemaId} {id part : SchemaId}

theorem Reaches.start_notMem (hreaches : table.Reaches trail id part) : id ∉ trail := by
  cases hreaches <;> assumption

theorem Reaches.shorten_trail {other : SchemaId} (hreaches : table.Reaches (other :: trail) id part) :
    table.Reaches trail id part := by
  induction hreaches with
  | here hnew => exact .here fun hmem => hnew (List.mem_cons_of_mem _ hmem)
  | through hnew hincludes _ ih =>
      exact .through (fun hmem => hnew (List.mem_cons_of_mem _ hmem)) hincludes ih

/-- A way that meets a schema can start there; it need not come back to it. -/
theorem Reaches.bypass (hreaches : table.Reaches trail id part) (other : SchemaId) :
    table.Reaches (other :: trail) id part ∨ part = other ∨
      ∃ next, table.Includes other next ∧ table.Reaches (other :: trail) next part := by
  induction hreaches with
  | @here id hnew =>
      by_cases heq : id = other
      · exact .inr (.inl heq)
      · exact .inl (.here (by simp [heq, hnew]))
  | @through id next part hnew hincludes _ ih =>
      rcases ih with hnext | hlater
      · by_cases heq : id = other
        · exact .inr (.inr ⟨next, heq ▸ hincludes, hnext⟩)
        · exact .inl (.through (by simp [heq, hnew]) hincludes hnext)
      · exact .inr hlater

/-- What a schema reaches is itself and what its parts reach without it. -/
theorem reaches_iff :
    table.Reaches trail id part ↔
      id ∉ trail ∧ (part = id ∨
        ∃ next, table.Includes id next ∧ table.Reaches (id :: trail) next part) := by
  constructor
  · intro hreaches
    refine ⟨hreaches.start_notMem, ?_⟩
    rcases hreaches.bypass id with hself | hlater
    · exact absurd List.mem_cons_self hself.start_notMem
    · exact hlater
  · rintro ⟨hnew, rfl | ⟨next, hincludes, hrest⟩⟩
    · exact .here hnew
    · exact .through hnew hincludes hrest.shorten_trail

theorem reaches_nil_iff :
    table.Reaches [] id part ↔ Relation.ReflTransGen table.Includes id part := by
  constructor
  · intro hreaches
    induction hreaches with
    | here => exact .refl
    | through _ hincludes _ ih => exact ih.head hincludes
  · intro hincluded
    induction hincluded using Relation.ReflTransGen.head_induction_on with
    | refl => exact .here List.not_mem_nil
    | head hincludes _ ih => exact .through List.not_mem_nil hincludes ih

end SchemaTable

namespace SchemaRules

variable {rules : SchemaRules} {fills trail : List SchemaId} {id : SchemaId} {value : Value}
  {schema : Schema}

/-- What one conjunct has to do with a value that conforms. -/
def Agrees (rules : SchemaRules) (schema : Schema) (value : Value) : Prop :=
  rules.AcceptsAlone schema value ∧
    ∀ part child, schema.Asks value part child → rules.Conforms part child

theorem conforms_iff :
    rules.Conforms id value ↔ ∀ part schema, rules.schemas.Reaches [] id part →
      rules.schemas.get? part = some schema → rules.Agrees schema value := by
  constructor
  · rintro ⟨halone, hinside⟩ part schema hreaches hget
    have hconjunct : rules.schemas.Conjunct id schema :=
      ⟨part, SchemaTable.reaches_nil_iff.1 hreaches, hget⟩
    exact ⟨halone schema hconjunct, hinside schema hconjunct⟩
  · intro hagrees
    constructor
    · rintro schema ⟨part, hincluded, hget⟩
      exact (hagrees part schema (SchemaTable.reaches_nil_iff.2 hincluded) hget).1
    · rintro schema ⟨part, hincluded, hget⟩
      exact (hagrees part schema (SchemaTable.reaches_nil_iff.2 hincluded) hget).2

theorem mem_children_of_asks {part : SchemaId} {child : Value}
    (hasks : schema.Asks value part child) : child ∈ value.children := by
  cases hasks with
  | item _ hmem => exact hmem
  | declared hmem _ => exact List.mem_map.2 ⟨_, hmem, rfl⟩
  | further hmem _ _ => exact List.mem_map.2 ⟨_, hmem, rfl⟩

theorem missingDefaults_eq_nil (hconjunctive : rules.schemas.IsConjunctive)
    (members : Entries Value) : rules.missingDefaults schema members = [] := by
  refine List.filterMap_eq_nil_iff.2 fun entry _ => ?_
  dsimp only
  split
  · rfl
  · split
    · next property hget => rw [hconjunctive.default _ _ hget, Option.map_none]
    · rfl

/-- Below the schemas of a trail, a schema accepts what every schema agrees with that it reaches
off the trail. -/
theorem isAccepted_applyAt_iff (hconjunctive : rules.schemas.IsConjunctive) :
    ∀ fills trail id value, value.NullFree →
      ((rules.applyAt fills trail id value).isAccepted ↔
        ∀ part schema, rules.schemas.Reaches trail id part →
          rules.schemas.get? part = some schema → rules.Agrees schema value) := by
  refine applyAt.induct rules _ ?_ ?_ ?_
  · intro fills trail id value hget _
    rw [applyAt_of_get?_eq_none hget]
    refine iff_of_true rfl fun part schema hreaches hpart => ?_
    rcases SchemaTable.reaches_iff.1 hreaches with ⟨-, rfl | ⟨next, ⟨whole, hwhole, -⟩, -⟩⟩
    · simp [hget] at hpart
    · simp [hget] at hwhole
  · intro fills trail id value _ _ hmem _
    rw [applyAt_of_mem hmem]
    exact iff_of_true rfl fun part schema hreaches _ => absurd hmem hreaches.start_notMem
  · intro fills trail id value schema hget hnew hhere hinside _ hfree
    have hasked : (∀ part child, schema.Asks value part child →
        (rules.applyAt fills [] part child).isAccepted) ↔
        ∀ part child, schema.Asks value part child → rules.Conforms part child := by
      refine forall₃_congr fun part child hasks => ?_
      have hchild := mem_children_of_asks hasks
      obtain ⟨-, hchildren⟩ := hfree
      rw [hinside child hchild part (hchildren child hchild), conforms_iff]
    have hown : (rules.judgeOwn schema value
        (rules.neighbours fills (id :: trail) value)).isAccepted ↔ rules.Agrees schema value := by
      rw [isAccepted_judgeOwn_iff (missingDefaults_eq_nil hconjunctive), hasked]
      rfl
    rw [applyAt_eq_judge hget hnew, isAccepted_judge_iff hfree.ne_null
      (fun _ => isExplained_applyAt _ _ _ _ _) (hconjunctive.oneOf id schema hget)
      (hconjunctive.anyOf id schema hget), hown]
    constructor
    · rintro ⟨hagrees, hparts⟩ part other hreaches hpart
      rcases SchemaTable.reaches_iff.1 hreaches with ⟨-, rfl | ⟨next, ⟨whole, hwhole, hmem⟩, hrest⟩⟩
      · obtain rfl := Option.some.inj (hget.symm.trans hpart)
        exact hagrees
      · obtain rfl := Option.some.inj (hget.symm.trans hwhole)
        exact (hhere next hfree).1 (hparts next hmem) part other hrest hpart
    · intro hall
      refine ⟨hall id schema (.here hnew) hget, fun next hmem => (hhere next hfree).2 ?_⟩
      intro part other hrest hpart
      exact hall part other (.through hnew ⟨schema, hget, hmem⟩ hrest.shorten_trail) hpart

/-- A table without alternatives and defaults accepts exactly the values that conform, whatever
cycles its schemas form and whether or not undeclared properties are welcome. -/
theorem isAccepted_apply_iff_conforms (rules : SchemaRules)
    (hconjunctive : rules.schemas.IsConjunctive) (id : SchemaId) (value : Value)
    (hfree : value.NullFree) : (rules.apply id value).isAccepted ↔ rules.Conforms id value := by
  rw [conforms_iff]
  exact isAccepted_applyAt_iff hconjunctive [] [] id value hfree

/-- Conformance of an object to two schemas that include each other. -/
theorem mutual_inclusion_accepts_iff_conforms :
    let named : Schema := { type? := some .object, required := ["id"], allOf := [1] }
    let linked : Schema := { properties := [("id", 2), ("next", 0)], allOf := [0] }
    let rules : SchemaRules := {
      schemas := ⟨#[named, linked, .ofType .integer]⟩
      formats := Format.standard
      allowsExtras := false }
    let value := Value.object [("id", .integer 1)]
    rules.schemas.IsConjunctive ∧ value.NullFree ∧ rules.Conforms 0 value := by
  intro named linked rules value
  have hconjunctive : rules.schemas.IsConjunctive := by
    simp [SchemaTable.isConjunctive_iff, rules, named, linked, Schema.ofType]
  have hfree : value.NullFree := by
    simp [value, Value.nullFree_object, Value.nullFree_integer]
  have hid : rules.applyAt [] [] 2 (.integer 1) = .accepted (.integer 1) := by
    rw [applyAt_eq_judge (show rules.schemas.get? 2 = some (.ofType .integer) from rfl)
      List.not_mem_nil]
    rfl
  have hvisited : rules.applyAt [] [1, 0] 0 value = .accepted value := applyAt_of_mem (by simp)
  have hlinked : rules.applyAt [] [0] 1 value = .accepted value := by
    rw [applyAt_eq_judge (show rules.schemas.get? 1 = some linked from rfl) (by simp)]
    change (Judgement.all [((Judgement.all [SchemaRules.named "id"
      (rules.applyAt [] [] 2 (.integer 1))]).map Value.object).andThen _,
      rules.applyAt [] [1, 0] 0 value]).map _ = _
    rw [hid, hvisited]
    rfl
  have hnamed : rules.applyAt [] [] 0 value = .accepted value := by
    rw [applyAt_eq_judge (show rules.schemas.get? 0 = some named from rfl) List.not_mem_nil]
    change (Judgement.all [.accepted value, rules.applyAt [] [0] 1 value]).map _ = _
    rw [hlinked]
    rfl
  refine ⟨hconjunctive, hfree, ?_⟩
  rw [← isAccepted_apply_iff_conforms rules hconjunctive 0 value hfree, apply, hnamed]
  rfl

/-- A schema that says nothing about the type of a value does not look at properties, not even
when undeclared ones are unwelcome. -/
theorem undeclared_property_accepted_without_type :
    let rules : SchemaRules :=
      { schemas := ⟨#[{}]⟩, formats := Format.standard, allowsExtras := false }
    let value := Value.object [("a", .integer 1)]
    rules.schemas.IsConjunctive ∧ value.NullFree ∧ (rules.apply 0 value).isAccepted ∧
      rules.schemas.Conjunct 0 {} ∧ Entries.get? ({} : Schema).properties "a" = none ∧
      (∀ id, ({} : Schema).extras? ≠ some (.conforming id)) ∧ ¬ rules.PermitsExtras {} := by
  intro rules value
  have hget : rules.schemas.get? 0 = some {} := rfl
  refine ⟨by simp [SchemaTable.isConjunctive_iff, rules], ?_, ?_, ⟨0, .refl, hget⟩, rfl, by simp,
    by simp [PermitsExtras, rules, Schema.isComposed]⟩
  · simp [value, Value.nullFree_object, Value.nullFree_integer]
  · rw [apply, applyAt_eq_judge hget List.not_mem_nil]
    rfl

end SchemaRules
end ApiContract
