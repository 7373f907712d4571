import ApiContract.Proofs.Composition
import ApiContract.Proofs.Idempotence
import ApiContract.Schema.Coercion

/-!
# Steps of coercion

Coercion goes down a value level by level.  At a text it asks the schema for its type, or the members
of a composition for one that reads the text; below an array or an object it looks for the schemas of
the items and the properties.  This file opens one such step, and shows that a schema which narrows
down its type by no further keyword accepts what it reads from a text.
-/

namespace ApiContract

/-- The schema itself has no keyword that narrows down what its type allows. -/
structure Schema.IsUnbounded (schema : Schema) : Prop where
  format : schema.format? = none
  literals : schema.literals? = none
  constraints : schema.constraints = {}

/-- Nothing narrows down what the type of the schema allows, other schemas included. -/
structure Schema.IsUnconstrained (schema : Schema) : Prop extends schema.IsUnbounded where
  alone : schema.isComposed = false

theorem Schema.isUnconstrained_ofType (type : SchemaType) : (Schema.ofType type).IsUnconstrained :=
  ⟨⟨rfl, rfl, rfl⟩, rfl⟩

theorem Schema.type?_eq_null {schema : Schema} (htype : schema.effectiveType? = some .null) :
    schema.type? = some .null := by
  unfold effectiveType? at htype
  split at htype
  · next declared hdeclared => rw [hdeclared, htype]
  · split at htype
    · simp at htype
    · split at htype <;> simp at htype

namespace SchemaTable

variable {table : SchemaTable} {id : SchemaId} {schema : Schema} {steps : Nat} {text : String}

/-- What a member of a composition reads from a text, if it is no text any more. -/
def readMember? (table : SchemaTable) (steps : Nat) (text : String) (id : SchemaId) : Option Value :=
  match (table.get? id).map fun member => table.coerceText steps member text with
  | none => none
  | some (.string _) => none
  | some value => some value

/-- A child of a value under the schema that was found for it, if one was. -/
def coerceUnder (table : SchemaTable) (steps : Nat) (part? : Option SchemaId) (child : Value) :
    Value :=
  match part? with
  | some part => table.coerceAt steps part child
  | none => child

/-! ## Texts -/

theorem coerceText_of_type {type : SchemaType} (htype : schema.effectiveType? = some type) :
    table.coerceText steps schema text = (readText? type text).getD (.string text) := by
  rw [coerceText.eq_def]
  simp only [htype]

theorem coerceText_zero (htype : schema.effectiveType? = none) :
    table.coerceText 0 schema text = .string text := by
  rw [coerceText.eq_def]
  simp only [htype]

theorem coerceText_succ (htype : schema.effectiveType? = none) :
    table.coerceText (steps + 1) schema text =
      (schema.members.findSome? (table.readMember? steps text)).getD (.string text) := by
  rw [coerceText.eq_def]
  simp only [htype]
  rfl

theorem coerceText_of_members_eq_nil (hnone : schema.members = [])
    (htype : schema.effectiveType? = none) : table.coerceText steps schema text = .string text := by
  cases steps with
  | zero => exact coerceText_zero htype
  | succ steps =>
      rw [coerceText_succ htype, hnone]
      rfl

theorem readMember?_congr {further : Nat} (hsame : ∀ member, table.get? id = some member →
    table.coerceText further member text = table.coerceText steps member text) :
    table.readMember? further text id = table.readMember? steps text id := by
  unfold readMember?
  cases hget : table.get? id with
  | none => rfl
  | some member => rw [Option.map_some, Option.map_some, hsame member hget]

theorem exists_of_readMember? {value : Value}
    (hread : table.readMember? steps text id = some value) :
    ∃ member, table.get? id = some member ∧ table.coerceText steps member text = value ∧
      ∀ other, value ≠ .string other := by
  unfold readMember? at hread
  cases hget : table.get? id with
  | none => simp [hget] at hread
  | some member =>
      rw [hget, Option.map_some] at hread
      split at hread
      · cases hread
      · cases hread
      · next found hother heq =>
          obtain rfl := Option.some.inj hread
          refine ⟨member, rfl, Option.some.inj heq, fun other hstring => ?_⟩
          exact hother other hstring

/-- The values that a text may be read as under a primitive type. -/
inductive Reads : SchemaType → Value → Prop
  | integer (i : Int64) : Reads .integer (.integer i)
  | integral (i : Int64) : Reads .number (.integer i)
  | number (n : Binary64) : Reads .number (.number n)
  | boolean (b : Bool) : Reads .boolean (.bool b)
  | null : Reads .null .null

theorem reads_of_readText? {type : SchemaType} {value : Value}
    (hread : readText? type text = some value) : Reads type value := by
  cases type with
  | integer =>
      obtain ⟨i, -, rfl⟩ := Option.map_eq_some_iff.1 hread
      exact .integer i
  | number =>
      unfold readText? at hread
      dsimp only at hread
      split at hread
      · obtain rfl := Option.some.inj hread
        exact .integral _
      · obtain ⟨n, -, rfl⟩ := Option.map_eq_some_iff.1 hread
        exact .number n
  | boolean =>
      unfold readText? at hread
      dsimp only at hread
      split at hread
      · obtain rfl := Option.some.inj hread
        exact .boolean true
      · split at hread
        · obtain rfl := Option.some.inj hread
          exact .boolean false
        · cases hread
  | null =>
      unfold readText? at hread
      dsimp only at hread
      split at hread
      · obtain rfl := Option.some.inj hread
        exact .null
      · cases hread
  | string => cases hread
  | array => cases hread
  | object => cases hread

theorem Reads.isContainer {type : SchemaType} {value : Value} (hreads : Reads type value) :
    value.isContainer = false := by
  cases hreads <;> rfl

theorem Reads.primitive? {type : SchemaType} {value : Value} (hreads : Reads type value) :
    SchemaRules.primitive? type value = some value := by
  cases hreads <;> rfl

/-! ## Levels of a value -/

theorem coerceAt_zero (value : Value) : table.coerceAt 0 id value = value := by
  rw [coerceAt]

theorem coerceAt_of_get?_eq_none (hget : table.get? id = none) (value : Value) :
    table.coerceAt steps id value = value := by
  cases steps with
  | zero => exact coerceAt_zero value
  | succ steps =>
      rw [coerceAt]
      simp only [hget]

theorem coerceAt_text (hget : table.get? id = some schema) :
    table.coerceAt (steps + 1) id (.string text) = table.coerceText steps schema text := by
  rw [coerceAt]
  simp only [hget]

theorem coerceAt_array (hget : table.get? id = some schema) (items : List Value) :
    table.coerceAt (steps + 1) id (.array items) =
      .array (items.map (table.coerceUnder steps (table.itemSchema? steps schema))) := by
  rw [coerceAt]
  simp only [hget]
  cases table.itemSchema? steps schema with
  | some part => rfl
  | none =>
      have hsame : table.coerceUnder steps none = fun child => child := rfl
      rw [hsame, List.map_id']

theorem coerceAt_object (hget : table.get? id = some schema) (members : Entries Value) :
    table.coerceAt (steps + 1) id (.object members) =
      .object (members.map fun member =>
        (member.1, table.coerceUnder steps (table.propertySchema? member.1 steps schema)
          member.2)) := by
  rw [coerceAt]
  simp only [hget]
  congr 2
  funext member
  obtain ⟨name, child⟩ := member
  cases table.propertySchema? name steps schema <;> rfl

theorem coerceAt_scalar {value : Value} (hcontainer : value.isContainer = false)
    (htext : ∀ text, value ≠ .string text) : table.coerceAt steps id value = value := by
  cases steps with
  | zero => exact coerceAt_zero value
  | succ steps =>
      cases hget : table.get? id with
      | none => exact coerceAt_of_get?_eq_none hget value
      | some schema =>
          rw [coerceAt]
          simp only [hget]
          cases value with
          | string text => exact absurd rfl (htext text)
          | array items => cases hcontainer
          | object members => cases hcontainer
          | _ => rfl

theorem coerceUnder_eq_self {part? : Option SchemaId} {child : Value}
    (hsame : ∀ part, part? = some part → table.coerceAt steps part child = child) :
    table.coerceUnder steps part? child = child := by
  cases part? with
  | none => rfl
  | some part => exact hsame part rfl

/-- Reading leaves a value alone if it leaves the text or everything inside alone. -/
theorem coerceAt_eq_self {value : Value} (hget : table.get? id = some schema)
    (htext : ∀ text, value = .string text →
      table.coerceText steps schema text = .string text)
    (hitems : ∀ items, value = .array items → ∀ item ∈ items, ∀ part,
      table.itemSchema? steps schema = some part → table.coerceAt steps part item = item)
    (hmembers : ∀ members, value = .object members → ∀ member ∈ members, ∀ part,
      table.propertySchema? member.1 steps schema = some part →
        table.coerceAt steps part member.2 = member.2) :
    table.coerceAt (steps + 1) id value = value := by
  cases value with
  | string text => rw [coerceAt_text hget, htext text rfl]
  | array items =>
      have hsame : ∀ item ∈ items,
          table.coerceUnder steps (table.itemSchema? steps schema) item = item :=
        fun item hitem => coerceUnder_eq_self (hitems items rfl item hitem)
      rw [coerceAt_array hget, List.map_congr_left hsame, List.map_id']
  | object members =>
      have hsame : ∀ member ∈ members, (member.1, table.coerceUnder steps
          (table.propertySchema? member.1 steps schema) member.2) = member := by
        intro member hmember
        rw [coerceUnder_eq_self (hmembers members rfl member hmember)]
      rw [coerceAt_object hget, List.map_congr_left hsame, List.map_id']
  | _ => exact coerceAt_scalar rfl (by simp)

theorem itemSchema?_of_items {part : SchemaId} (hitems : schema.items? = some part) :
    table.itemSchema? steps schema = some part := by
  cases steps <;> rw [itemSchema?, hitems]
  rw [Option.some_or]

theorem propertySchema?_of_declared {name : String} {part : SchemaId}
    (hdeclared : Entries.get? schema.properties name = some part) :
    table.propertySchema? name steps schema = some part := by
  cases steps <;> rw [propertySchema?, hdeclared, Option.some_or]

end SchemaTable

/-! ## Schemas that take what they read -/

namespace SchemaRules

variable {rules : SchemaRules} {fills trail : List SchemaId} {id : SchemaId} {value : Value}
  {schema : Schema} {near : Neighbours value}

theorem judgeParts_of_isComposed_eq_false (hplain : schema.isComposed = false) :
    rules.judgeParts schema value near = rules.judgeOwn schema value near := by
  obtain ⟨hallOf, honeOf, hanyOf⟩ := isComposed_eq_false_iff.1 hplain
  have hnone : judgeAlternatives schema value near.here = [] := by
    simp only [judgeAlternatives, honeOf, hanyOf]
    split <;> rfl
  have hexplained : (rules.judgeOwn schema value near).IsExplained := isExplained_judgeOwn
  unfold judgeParts
  rw [hnone, hallOf]
  cases hown : rules.judgeOwn schema value near with
  | accepted typed => rfl
  | rejected violations =>
      rw [hown] at hexplained
      cases violations with
      | nil => exact absurd rfl hexplained
      | cons first rest => simp [Judgement.all, Judgement.gather, Judgement.map]
  | unending => rfl

theorem excesses_default (value : Value) : ({} : Constraints).excesses value = [] := by
  unfold Constraints.excesses
  split
  · simp [Constraints.itemExcesses, Constraints.short?, Constraints.over?]
  · simp [Constraints.propertyExcesses, Constraints.short?, Constraints.over?]
  · split
    · simp [Constraints.textExcesses, Constraints.short?, Constraints.over?]
    · simp [Constraints.numberExcesses]
    · rfl

/-- Without further keywords the type alone judges. -/
theorem judgeOwn_of_isUnbounded (hfree : schema.IsUnbounded) :
    rules.judgeOwn schema value near = rules.judgeType schema value near := by
  have hbounds : boundFaults schema value = [] := by
    simp [boundFaults, hfree.constraints, hfree.literals, excesses_default]
  have hformat : ∀ typed, rules.judgeFormat schema typed = .accepted typed := by
    intro typed
    simp only [judgeFormat, hfree.format]
  unfold judgeOwn
  cases rules.judgeType schema value near with
  | accepted typed => simp only [Judgement.andThen, hbounds, hformat]
  | rejected violations => rfl
  | unending => rfl

theorem applyAt_of_isUnconstrained (hget : rules.schemas.get? id = some schema)
    (hnew : id ∉ trail) (hnull : value ≠ .null) (hfree : schema.IsUnconstrained) :
    rules.applyAt fills trail id value =
      rules.judgeType schema value (rules.neighbours fills (id :: trail) value) := by
  rw [applyAt_eq_judge hget hnew, judge_of_ne_null hnull,
    judgeParts_of_isComposed_eq_false hfree.alone, judgeOwn_of_isUnbounded hfree.toIsUnbounded]

/-- A schema without further keywords accepts all values that its type reads from texts. -/
theorem applyAt_of_reads {type : SchemaType} (hget : rules.schemas.get? id = some schema)
    (htype : schema.effectiveType? = some type) (hfree : schema.IsUnconstrained)
    (hreads : SchemaTable.Reads type value) :
    rules.applyAt fills trail id value = .accepted value := by
  by_cases hnew : id ∈ trail
  · exact applyAt_of_mem hnew
  by_cases hnull : value = .null
  · subst hnull
    obtain rfl : type = .null := by cases hreads; rfl
    rw [applyAt_eq_judge hget hnew, judge_null_of_takesNull (.inr (.inl (Schema.type?_eq_null htype)))]
  · have harray : type ≠ .array := by
      rintro rfl
      cases hreads
    have hobject : type ≠ .object := by
      rintro rfl
      cases hreads
    rw [applyAt_of_isUnconstrained hget hnew hnull hfree,
      judgeType_eq_accepted_iff_of_primitive htype harray hobject]
    exact hreads.primitive?

end SchemaRules
end ApiContract
