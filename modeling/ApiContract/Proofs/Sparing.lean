import ApiContract.Proofs.Asking
import ApiContract.Proofs.MemberSearch

/-!
# Values that need no default

Judging a value by a schema comes to judging it by other schemas, to judging what is inside it, and to
judging the defaults that are filled in.  `ComesTo` follows these steps, and `Spares` says that none of
them fills in the default of a schema of a certain kind.  Reading the texts inside a value does not
change what is filled in, because objects keep the names of their members.
-/

namespace ApiContract
namespace SchemaTable

variable {table : SchemaTable} {around : SchemaId → Prop} {id part : SchemaId} {value inner : Value}
  {schema : Schema}

/-! ## What judging a value comes to -/

/-- A schema fills in a default of a value: that of a property which is absent and not required. -/
def FillsIn (table : SchemaTable) (schema : Schema) (value : Value) (name : String)
    (property : SchemaId) (literal : Json) : Prop :=
  schema.effectiveType? = some .object ∧ ∃ members, value = .object members ∧
    (name, property) ∈ schema.properties ∧ name ∉ Entries.keys members ∧ name ∉ schema.required ∧
      ∃ found, table.get? property = some found ∧ found.default? = some literal

theorem fillsIn_iff {rules : SchemaRules} {missing : String × SchemaId × Json} :
    rules.FillsIn schema value missing ↔
      rules.schemas.FillsIn schema value missing.1 missing.2.1 missing.2.2 := by
  unfold SchemaRules.FillsIn FillsIn
  simp only [SchemaRules.mem_missingDefaults_iff]

/-- Judging the first value by the first schema may come to judging the second value by the second
schema. -/
inductive ComesTo (table : SchemaTable) (id : SchemaId) (value : Value) : SchemaId → Value → Prop
  | self : ComesTo table id value id value
  | here {part next : SchemaId} {inner : Value} {schema : Schema}
      (hbefore : ComesTo table id value part inner) (hget : table.get? part = some schema)
      (hmem : next ∈ schema.components) : ComesTo table id value next inner
  | inside {part next : SchemaId} {inner child : Value} {schema : Schema}
      (hbefore : ComesTo table id value part inner) (hget : table.get? part = some schema)
      (hasks : schema.Asks inner next child) : ComesTo table id value next child
  | filled {part next : SchemaId} {inner : Value} {schema : Schema} {name : String} {literal : Json}
      (hbefore : ComesTo table id value part inner) (hget : table.get? part = some schema)
      (hfills : table.FillsIn schema inner name next literal) :
      ComesTo table id value next (.ofJson literal)

theorem ComesTo.trans {last : SchemaId} {innermost : Value}
    (hfirst : table.ComesTo id value part inner) (hnext : table.ComesTo part inner last innermost) :
    table.ComesTo id value last innermost := by
  induction hnext with
  | self => exact hfirst
  | here _ hget hmem ih => exact .here ih hget hmem
  | inside _ hget hasks ih => exact .inside ih hget hasks
  | filled _ hget hfills ih => exact .filled ih hget hfills

/-- Judging the value by the schema fills in the default of no schema of the kind. -/
def Spares (table : SchemaTable) (around : SchemaId → Prop) (id : SchemaId) (value : Value) : Prop :=
  ∀ part inner schema name property literal, table.ComesTo id value part inner →
    table.get? part = some schema → table.FillsIn schema inner name property literal →
    ¬ around property

theorem Spares.of_comesTo (hspares : table.Spares around id value)
    (hcomes : table.ComesTo id value part inner) : table.Spares around part inner :=
  fun _ _ _ _ _ _ hnext => hspares _ _ _ _ _ _ (hcomes.trans hnext)

/-! ## Reading the texts inside -/

/-- The second value is the first one after texts inside it were read. -/
def Rereads (table : SchemaTable) (value other : Value) : Prop :=
  ∃ steps id, other = table.coerceAt steps id value

theorem rereads_self (value : Value) : table.Rereads value value :=
  ⟨0, 0, (coerceAt_zero value).symm⟩

theorem rereads_coerceUnder (steps : ℕ) (part? : Option SchemaId) (value : Value) :
    table.Rereads value (table.coerceUnder steps part? value) := by
  cases part? with
  | none => exact rereads_self value
  | some part => exact ⟨steps, part, rfl⟩

/-- How reading goes on inside a value: lists keep their items and objects keep the names of their
members. -/
inductive RereadsInside (table : SchemaTable) : Value → Value → Prop
  | scalar {value other : Value} (hvalue : value.isContainer = false)
      (hother : other.isContainer = false) : RereadsInside table value other
  | array {items others : List Value} (hitems : List.Forall₂ table.Rereads items others) :
      RereadsInside table (.array items) (.array others)
  | object {members others : Entries Value}
      (hmembers : List.Forall₂
        (fun member result => result.1 = member.1 ∧ table.Rereads member.2 result.2)
        members others) : RereadsInside table (.object members) (.object others)

theorem rereadsInside_self (value : Value) : table.RereadsInside value value := by
  cases value with
  | array items => exact .array (List.forall₂_same.2 fun item _ => rereads_self item)
  | object members =>
      exact .object (List.forall₂_same.2 fun member _ => ⟨rfl, rereads_self member.2⟩)
  | _ => exact .scalar rfl rfl

theorem Rereads.inside {other : Value} (hrereads : table.Rereads value other) :
    table.RereadsInside value other := by
  obtain ⟨steps, id, rfl⟩ := hrereads
  cases steps with
  | zero =>
      rw [coerceAt_zero]
      exact rereadsInside_self value
  | succ steps =>
      cases hget : table.get? id with
      | none =>
          rw [coerceAt_of_get?_eq_none hget]
          exact rereadsInside_self value
      | some schema =>
          cases value with
          | string text =>
              rw [coerceAt_text hget]
              exact .scalar rfl isContainer_coerceText
          | array items =>
              rw [coerceAt_array hget]
              refine .array ?_
              rw [List.forall₂_map_right_iff, List.forall₂_same]
              exact fun item _ => rereads_coerceUnder steps _ item
          | object members =>
              rw [coerceAt_object hget]
              refine .object ?_
              rw [List.forall₂_map_right_iff, List.forall₂_same]
              exact fun member _ => ⟨rfl, rereads_coerceUnder steps _ member.2⟩
          | _ =>
              rw [coerceAt_scalar rfl (by simp)]
              exact rereadsInside_self _

theorem exists_left_of_forall₂ {α β : Type} {related : α → β → Prop} {items : List α}
    {others : List β} (hall : List.Forall₂ related items others) :
    ∀ other ∈ others, ∃ item ∈ items, related item other := by
  induction hall with
  | nil => simp
  | cons hfirst _ ih =>
      rw [List.forall_mem_cons]
      refine ⟨⟨_, List.mem_cons_self, hfirst⟩, fun other hmem => ?_⟩
      obtain ⟨item, hitem, hrelated⟩ := ih other hmem
      exact ⟨item, List.mem_cons_of_mem _ hitem, hrelated⟩

theorem exists_asks_of_rereads {other child : Value} (hrereads : table.Rereads value other)
    (hasks : schema.Asks other part child) :
    ∃ before, schema.Asks value part before ∧ table.Rereads before child := by
  cases hrereads.inside with
  | scalar _ hscalar => cases hasks <;> cases hscalar
  | array hitems =>
      cases hasks with
      | item hpart hmem =>
          obtain ⟨item, hitem, hchild⟩ := exists_left_of_forall₂ hitems _ hmem
          exact ⟨item, .item hpart hitem, hchild⟩
  | object hmembers =>
      cases hasks with
      | declared hmem hdeclared =>
          obtain ⟨⟨_, before⟩, hmember, rfl, hchild⟩ := exists_left_of_forall₂ hmembers _ hmem
          exact ⟨before, .declared hmember hdeclared, hchild⟩
      | further hmem hundeclared hextras =>
          obtain ⟨⟨_, before⟩, hmember, rfl, hchild⟩ := exists_left_of_forall₂ hmembers _ hmem
          exact ⟨before, .further hmember hundeclared hextras, hchild⟩

theorem FillsIn.of_rereads {other : Value} {name : String} {property : SchemaId} {literal : Json}
    (hrereads : table.Rereads value other)
    (hfills : table.FillsIn schema other name property literal) :
    table.FillsIn schema value name property literal := by
  obtain ⟨hobject, found, rfl, hmem, habsent, hrest⟩ := hfills
  cases hrereads.inside with
  | scalar _ hscalar => cases hscalar
  | @object members _ hmembers =>
      have hkeys : Entries.keys found = Entries.keys members :=
        Entries.keys_eq_of_forall₂ (hmembers.imp fun _ _ hmember => hmember.1.symm)
      exact ⟨hobject, members, rfl, hmem, hkeys ▸ habsent, hrest⟩

theorem exists_comesTo_of_rereads {other : Value} (hrereads : table.Rereads value other)
    (hcomes : table.ComesTo id other part inner) :
    ∃ before, table.ComesTo id value part before ∧ table.Rereads before inner := by
  induction hcomes with
  | self => exact ⟨value, .self, hrereads⟩
  | here _ hget hmem ih =>
      obtain ⟨before, hbefore, hinner⟩ := ih
      exact ⟨before, .here hbefore hget hmem, hinner⟩
  | inside _ hget hasks ih =>
      obtain ⟨before, hbefore, hinner⟩ := ih
      obtain ⟨child, hchild, hrest⟩ := exists_asks_of_rereads hinner hasks
      exact ⟨child, .inside hbefore hget hchild, hrest⟩
  | filled _ hget hfills ih =>
      obtain ⟨before, hbefore, hinner⟩ := ih
      exact ⟨_, .filled hbefore hget (.of_rereads hinner hfills), rereads_self _⟩

/-- Reading the texts inside a value lets no default be filled in that was not before. -/
theorem Spares.of_rereads {other : Value} (hspares : table.Spares around id value)
    (hrereads : table.Rereads value other) : table.Spares around id other := by
  intro part inner schema name property literal hcomes hget hfills
  obtain ⟨before, hbefore, hinner⟩ := exists_comesTo_of_rereads hrereads hcomes
  exact hspares part before schema name property literal hbefore hget (.of_rereads hinner hfills)

end SchemaTable
end ApiContract
