import ApiContract.Proofs.DirectReading
import ApiContract.Proofs.QueryLists

/-!
# Values that travel as texts

Forms and parameters write integers in decimal digits and booleans as words, so that all leaves of a
value become texts.  Coercion undoes this under every schema without compositions that accepts the
value: it finds the same schemas for items and properties as the judgement does, and the type that
accepted a leaf reads it back from its text.  Texts stay as they are, whatever they look like.
-/

namespace ApiContract

/-! ## Values written as texts -/

namespace Value

mutual

/-- The value with its integers in decimal digits and its booleans as words. -/
def asTexts : Value → Value
  | .integer value => .string (toString value)
  | .bool value => .string (toString value)
  | .array items => .array (itemsAsTexts items)
  | .object members => .object (membersAsTexts members)
  | value => value

def itemsAsTexts : List Value → List Value
  | [] => []
  | item :: rest => asTexts item :: itemsAsTexts rest

def membersAsTexts : List (String × Value) → List (String × Value)
  | [] => []
  | (name, value) :: rest => (name, asTexts value) :: membersAsTexts rest

end

/-- Arrays and objects stand within each other at most so many levels deep. -/
inductive NestedWithin : (levels : Nat) → Value → Prop
  | leaf {levels : Nat} {value : Value} (hleaf : value.isContainer = false) :
      NestedWithin levels value
  | container {levels : Nat} {value : Value}
      (hchildren : ∀ child ∈ value.children, NestedWithin levels child) :
      NestedWithin (levels + 1) value

/-- There is nothing in the value but arrays and objects. -/
inductive Leafless : Value → Prop
  | intro {value : Value} (hcontainer : value.isContainer)
      (hchildren : ∀ child ∈ value.children, Leafless child) : Leafless value

variable {value : Value} {levels : Nat}

@[simp] theorem asTexts_array (items : List Value) :
    (Value.array items).asTexts = .array (items.map asTexts) := by
  have hitems : ∀ items, itemsAsTexts items = items.map asTexts := by
    intro items
    induction items with
    | nil => rfl
    | cons item rest ih => rw [itemsAsTexts, ih, List.map_cons]
  rw [asTexts, hitems]

@[simp] theorem asTexts_object (members : Entries Value) :
    (Value.object members).asTexts =
      .object (members.map fun member => (member.1, member.2.asTexts)) := by
  have hmembers : ∀ members, membersAsTexts members =
      members.map fun member => (member.1, member.2.asTexts) := by
    intro members
    induction members with
    | nil => rfl
    | cons member rest ih => rw [membersAsTexts, ih, List.map_cons]
  rw [asTexts, hmembers]

theorem NestedWithin.exists_levels (hnested : value.NestedWithin levels)
    (hcontainer : value.isContainer) :
    ∃ inner, levels = inner + 1 ∧ ∀ child ∈ value.children, child.NestedWithin inner := by
  cases hnested with
  | leaf hleaf => simp [hleaf] at hcontainer
  | container hchildren => exact ⟨_, rfl, hchildren⟩

theorem mem_children_object {members : Entries Value} {member : String × Value}
    (hmember : member ∈ members) : member.2 ∈ (Value.object members).children :=
  List.mem_map_of_mem hmember

theorem Leafless.asTexts_eq (hleafless : value.Leafless) : value.asTexts = value := by
  induction hleafless with
  | @intro value hcontainer hchildren ih =>
      cases value with
      | array items =>
          have hitems : ∀ item ∈ items, item.asTexts = item := ih
          rw [asTexts_array, List.map_congr_left hitems, List.map_id']
      | object members =>
          have hmembers : ∀ member ∈ members, (member.1, member.2.asTexts) = member := by
            intro member hmember
            rw [ih _ (mem_children_object hmember)]
          rw [asTexts_object, List.map_congr_left hmembers, List.map_id']
      | _ => simp [isContainer] at hcontainer

end Value

/-! ## Schemas for leaves -/

namespace SchemaTable

/-- No schema of the table is composed of others. -/
def IsCompositionFree (table : SchemaTable) : Prop :=
  ∀ id schema, table.get? id = some schema → schema.isComposed = false

/-- Each leaf of a value is a text, an integer or a boolean, and the schemas for items, for declared
properties and for further ones lead to a schema for it that has a primitive type. -/
inductive ReachesLeaves (table : SchemaTable) : SchemaId → Value → Prop
  | leaf {id : SchemaId} {value : Value} {schema : Schema} {type : SchemaType}
      (hget : table.get? id = some schema) (htype : schema.effectiveType? = some type)
      (hprimitive : type ∈ [.string, .integer, .number, .boolean])
      (hkind : value.kind ∈ [.string, .integer, .boolean]) : ReachesLeaves table id value
  | leafless {id : SchemaId} {value : Value} (hleafless : value.Leafless) :
      ReachesLeaves table id value
  | items {id part : SchemaId} {schema : Schema} {items : List Value}
      (hget : table.get? id = some schema) (hitems : schema.items? = some part)
      (hreaches : ∀ item ∈ items, ReachesLeaves table part item) :
      ReachesLeaves table id (.array items)
  | members {id : SchemaId} {part : String → SchemaId} {schema : Schema} {members : Entries Value}
      (hget : table.get? id = some schema)
      (hgoverns : ∀ member ∈ members,
        member.2.Leafless ∨ schema.Governs member.1 (part member.1))
      (hreaches : ∀ member ∈ members, ReachesLeaves table (part member.1) member.2) :
      ReachesLeaves table id (.object members)

variable {table : SchemaTable} {id part : SchemaId} {schema : Schema} {steps : Nat} {value : Value}

theorem readText?_of_toString_int (i : Int64) {type : SchemaType}
    (htype : type = .integer ∨ type = .number) :
    readText? type (toString i) = some (.integer i) := by
  have htrim : Text.trim (toString i).toList = (toString i).toList := Numeral.trim_toString i.toInt
  rcases htype with rfl | rfl
  · exact readText?_toString i
  · simp only [readText?, htrim, Numeral.int64?_toString]

theorem readText?_of_toString_bool (b : Bool) :
    readText? .boolean (toString b) = some (.bool b) := by
  cases b <;> rfl

theorem propertySchema?_of_governs {name : String} (halone : schema.isComposed = false)
    (hgoverns : schema.Governs name part) :
    table.propertySchema? name steps schema = some part := by
  obtain ⟨hallOf, honeOf, hanyOf⟩ := SchemaRules.isComposed_eq_false_iff.1 halone
  have hmembers : schema.members = [] := by simp [Schema.members, hallOf, honeOf, hanyOf]
  rcases hgoverns with hdeclared | ⟨hundeclared, hextras⟩
  · exact propertySchema?_of_declared hdeclared
  · cases steps <;> simp [propertySchema?, hundeclared, hmembers, hextras]

theorem coerceAt_of_leafless (hleafless : value.Leafless) :
    table.coerceAt steps id value = value := by
  induction hleafless generalizing id steps with
  | @intro value hcontainer hchildren ih =>
      cases steps with
      | zero => exact coerceAt_zero value
      | succ steps =>
          cases hget : table.get? id with
          | none => exact coerceAt_of_get?_eq_none hget value
          | some schema =>
              refine coerceAt_eq_self hget ?_ ?_ ?_
              · rintro text rfl
                simp [Value.isContainer] at hcontainer
              · rintro items rfl item hitem part -
                exact ih item hitem
              · rintro members rfl member hmember part -
                exact ih member.2 (Value.mem_children_object hmember)

end SchemaTable

/-! ## Reading back -/

namespace SchemaRules

open SchemaTable

variable {rules : SchemaRules} {fills : List SchemaId} {id : SchemaId} {value : Value}
  {schema : Schema} {type : SchemaType} {steps levels : Nat}

theorem coerceText_of_leaf (hget : rules.schemas.get? id = some schema)
    (htype : schema.effectiveType? = some type)
    (hprimitive : type ∈ [.string, .integer, .number, .boolean])
    (hkind : value.kind ∈ [.string, .integer, .boolean])
    (haccepted : (rules.applyAt fills [] id value).isAccepted) :
    rules.schemas.coerceAt (steps + 1) id value.asTexts = value := by
  have hnull : value ≠ .null := by
    rintro rfl
    simp [Value.kind] at hkind
  have hown := isAccepted_judgeOwn_of_conjunct hnull haccepted (conjunct_self hget)
  obtain ⟨typed, htyped⟩ := exists_judgeType_of_judgeOwn hown
  have harray : type ≠ .array := by
    rintro rfl
    simp at hprimitive
  have hobject : type ≠ .object := by
    rintro rfl
    simp at hprimitive
  rw [judgeType_eq_accepted_iff_of_primitive htype harray hobject] at htyped
  cases value with
  | string text =>
      obtain rfl : type = .string := by
        cases type <;> simp_all [primitive?, Value.isTextual]
      change rules.schemas.coerceAt (steps + 1) id (.string text) = .string text
      rw [coerceAt_text hget, coerceText_of_type htype]
      rfl
  | integer i =>
      have hnumeric : type = .integer ∨ type = .number := by
        cases type <;> simp_all [primitive?, Value.isTextual]
      rw [Value.asTexts, coerceAt_text hget, coerceText_of_type htype,
        readText?_of_toString_int i hnumeric, Option.getD_some]
  | bool b =>
      obtain rfl : type = .boolean := by
        cases type <;> simp_all [primitive?, Value.isTextual]
      rw [Value.asTexts, coerceAt_text hget, coerceText_of_type htype,
        readText?_of_toString_bool, Option.getD_some]
  | _ => simp [Value.kind] at hkind

theorem coerceAt_asTexts (hfree : rules.schemas.IsCompositionFree)
    (hreaches : rules.schemas.ReachesLeaves id value) (hnested : value.NestedWithin levels)
    (haccepted : (rules.applyAt fills [] id value).isAccepted) :
    rules.schemas.coerceAt (levels + 1) id value.asTexts = value := by
  -- A container uses up one level and one step, so that no leaf is left without a step.
  induction hreaches generalizing levels with
  | leaf hget htype hprimitive hkind =>
      exact coerceText_of_leaf hget htype hprimitive hkind haccepted
  | leafless hleafless => rw [hleafless.asTexts_eq, coerceAt_of_leafless hleafless]
  | @items id part schema items hget hitems _ ih =>
      obtain ⟨inner, rfl, hinner⟩ := hnested.exists_levels rfl
      have hown := isAccepted_judgeOwn_of_conjunct (by simp) haccepted (conjunct_self hget)
      have hsame : ∀ item ∈ items,
          rules.schemas.coerceUnder (inner + 1) (some part) item.asTexts = item := by
        intro item hitem
        exact ih item hitem (hinner item hitem) (isAccepted_item_of_judgeOwn hown hitems hitem)
      rw [Value.asTexts_array, coerceAt_array hget, itemSchema?_of_items hitems, List.map_map]
      congr 1
      exact (List.map_congr_left hsame).trans (List.map_id' items)
  | @members id part schema members hget hgoverns _ ih =>
      obtain ⟨inner, rfl, hinner⟩ := hnested.exists_levels rfl
      have hown := isAccepted_judgeOwn_of_conjunct (by simp) haccepted (conjunct_self hget)
      have hsame : ∀ member ∈ members, (member.1, rules.schemas.coerceUnder (inner + 1)
          (rules.schemas.propertySchema? member.1 (inner + 1) schema) member.2.asTexts) =
            member := by
        intro member hmember
        congr 1
        rcases hgoverns member hmember with hleafless | hgoverned
        · rw [hleafless.asTexts_eq]
          cases rules.schemas.propertySchema? member.1 (inner + 1) schema with
          | none => rfl
          | some found => exact coerceAt_of_leafless hleafless
        · rw [propertySchema?_of_governs (hfree id schema hget) hgoverned]
          exact ih member hmember (hinner _ (Value.mem_children_object hmember))
            (isAccepted_property_of_judgeOwn hown hmember hgoverned)
      rw [Value.asTexts_object, coerceAt_object hget, List.map_map]
      congr 1
      exact (List.map_congr_left hsame).trans (List.map_id' members)

/-- A value that is accepted, with every leaf at a schema of a primitive type, comes back when it
has travelled as texts. -/
theorem coerce_asTexts (rules : SchemaRules) (hfree : rules.schemas.IsCompositionFree)
    {id : SchemaId} {value : Value} (hnested : value.NestedWithin 64)
    (hreaches : rules.schemas.ReachesLeaves id value)
    (haccepted : (rules.apply id value).isAccepted) :
    rules.schemas.coerce id value.asTexts = value :=
  coerceAt_asTexts hfree hreaches hnested haccepted

theorem number_like_texts_and_extreme_integers_come_back :
    let table : SchemaTable := ⟨#[
      { type? := some .object, properties := [("id", 1), ("on", 2), ("code", 3)],
        extras? := some (.conforming 4) },
      .ofType .integer, .ofType .boolean, .ofType .string,
      { type? := some .array, items? := some 5 }, .ofType .number]⟩
    let value : Value := .object [("code", .string "007"), ("id", .integer Int64.minValue),
      ("on", .bool false), ("sizes", .array [.integer 12, .integer (-1)]), ("none", .array [])]
    value.asTexts = .object [("code", .string "007"), ("id", .string "-9223372036854775808"),
      ("on", .string "false"), ("sizes", .array [.string "12", .string "-1"]),
      ("none", .array [])] ∧
    table.coerce 0 value.asTexts = value := by
  intro table value
  let rules : SchemaRules := { schemas := table, formats := Format.standard }
  let object : Schema := { type? := some .object, properties := [("id", 1), ("on", 2), ("code", 3)],
                           extras? := some (.conforming 4) }
  have hobject : rules.schemas.get? 0 = some object := rfl
  have hlist : rules.schemas.get? 4 = some { type? := some .array, items? := some 5 } := rfl
  have hinteger : rules.schemas.get? 1 = some (.ofType .integer) := rfl
  have hboolean : rules.schemas.get? 2 = some (.ofType .boolean) := rfl
  have hstring : rules.schemas.get? 3 = some (.ofType .string) := rfl
  have hnumber : rules.schemas.get? 5 = some (.ofType .number) := rfl
  have hfree : table.IsCompositionFree := by
    rw [IsCompositionFree, forall_get?_iff]
    decide
  have hreaches : rules.schemas.ReachesLeaves 0 value := by
    let part : String → SchemaId := fun name =>
      if name = "id" then 1 else if name = "on" then 2 else if name = "code" then 3 else 4
    have hlists : ∀ items : List Value, (∀ item ∈ items, item.kind = .integer) →
        rules.schemas.ReachesLeaves 4 (.array items) := by
      intro items hkinds
      refine .items hlist rfl fun item hitem => .leaf hnumber rfl (by simp) ?_
      simp [hkinds item hitem]
    refine @SchemaTable.ReachesLeaves.members _ _ part _ _ hobject ?_ ?_
    · simp [Schema.Governs, part, object, Entries.get?]
    · simp only [List.forall_mem_cons]
      exact ⟨.leaf hstring rfl (by simp) (by simp [Value.kind]),
        .leaf hinteger rfl (by simp) (by simp [Value.kind]),
        .leaf hboolean rfl (by simp) (by simp [Value.kind]),
        hlists _ (by simp [Value.kind]), hlists _ (by simp), by simp⟩
  have hnested : value.NestedWithin 64 := by
    have hlists : ∀ items : List Value, (∀ item ∈ items, item.isContainer = false) →
        (Value.array items).NestedWithin 63 :=
      fun items hleaves => .container fun item hitem => .leaf (hleaves item hitem)
    refine .container ?_
    simp only [value, Value.children, List.map_cons, List.forall_mem_cons]
    exact ⟨.leaf rfl, .leaf rfl, .leaf rfl, hlists _ (by simp [Value.isContainer]),
      hlists _ (by simp), by simp⟩
  have haccepted : (rules.apply 0 value).isAccepted := by
    have hleaf : ∀ id type leaf, rules.schemas.get? id = some (.ofType type) → Reads type leaf →
        (rules.applyAt [] [] id leaf).isAccepted := by
      intro id type leaf hget hreads
      rw [applyAt_of_reads hget rfl (Schema.isUnconstrained_ofType type) hreads]
      rfl
    have htext : (rules.applyAt [] [] 3 (.string "007")).isAccepted := by
      rw [applyAt_eq_judge hstring List.not_mem_nil]
      rfl
    have hlists : ∀ items : List Value, (∀ item ∈ items, Reads .number item) →
        (rules.applyAt [] [] 4 (.array items)).isAccepted := by
      intro items hreads
      rw [applyAt_of_isUnconstrained hlist List.not_mem_nil (by simp) ⟨⟨rfl, rfl, rfl⟩, rfl⟩,
        judgeType_array rfl]
      refine isAccepted_judgeItems_iff.2 fun part hpart item hitem => ?_
      exact Option.some.inj hpart ▸ hleaf 5 .number item hnumber (hreads item hitem)
    rw [apply, applyAt_of_isUnconstrained hobject List.not_mem_nil (by simp [value])
      ⟨⟨rfl, rfl, rfl⟩, rfl⟩, judgeType_object rfl]
    refine (isAccepted_judgeMembers_iff rfl).2 ⟨by simp [object], ?_⟩
    simp only [List.forall_mem_cons]
    exact ⟨htext, hleaf 1 .integer _ hinteger (.integer _),
      hleaf 2 .boolean _ hboolean (.boolean _), hlists _ (by simp [Reads.integral]),
      hlists _ (by simp), by simp⟩
  exact ⟨rfl, coerce_asTexts rules hfree hnested hreaches haccepted⟩

end SchemaRules
end ApiContract
