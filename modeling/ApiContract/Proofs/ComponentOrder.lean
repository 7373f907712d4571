import ApiContract.Proofs.PairedContracts
import Mathlib.Tactic

/-!
# The order of the component schemas

The positions of component schemas, and of all schemas inside them, follow the order in which a
description lists its components.  Nothing that can be observed depends on it: a description
compiles in each order or in none, and the contracts judge all values and all messages alike.
-/

namespace ApiContract

/-! ## Other component schemas -/

section Schemas

open RecordReader JsonReader

variable {members parts schemas : Entries Json}

theorem Components.ofJson?_insert_schemas
    (hschemas : Entries.get? parts "schemas" = some (.object schemas)) (others : Entries Json) :
    Components.ofJson? (.object (Entries.insert parts "schemas" (.object others))) =
      (Components.ofJson? (.object parts)).map fun components =>
        { components with schemas := others } := by
  have hbefore : fieldOf? parts "schemas" (map any) [] = some schemas := by
    rw [fieldOf?, hschemas]
    exact map_any_object schemas
  unfold Components.ofJson? run
  simp only [run_fieldOr_bind, hbefore, fieldOf?_insert_self, map_any_object]
  -- The sections behind the schemas are read from members that were not written to.
  simp (disch := decide) only [fieldOf?_insert_of_ne, Option.map_bind, Option.bind_some,
    Function.comp_def]
  rfl

theorem Document.ofJson?_insert_schemas
    (hcomponents : Entries.get? members "components" = some (.object parts))
    (hschemas : Entries.get? parts "schemas" = some (.object schemas)) (others : Entries Json) :
    Document.ofJson? (.object (Entries.insert members "components"
        (.object (Entries.insert parts "schemas" (.object others))))) =
      (Document.ofJson? (.object members)).map (·.withSchemas others) := by
  have hbefore : fieldOf? members "components" Components.ofJson? {} =
      Components.ofJson? (.object parts) := by
    rw [fieldOf?, hcomponents]
  unfold Document.ofJson? run
  simp only [run_fieldOr_bind, run_field?_bind, hbefore, fieldOf?_insert_self,
    Components.ofJson?_insert_schemas hschemas]
  simp (disch := decide) only [fieldOf?_insert_of_ne, Option.map_bind, Option.bind_map,
    Function.comp_def]
  rfl

theorem Document.schemas_of_ofJson?_object {document : Document}
    (hcomponents : Entries.get? members "components" = some (.object parts))
    (hschemas : Entries.get? parts "schemas" = some (.object schemas))
    (hread : Document.ofJson? (.object members) = some document) :
    document.components.schemas = schemas := by
  have hsame := Document.ofJson?_insert_schemas hcomponents hschemas schemas
  rw [Entries.insert_of_get? hschemas, Entries.insert_of_get? hcomponents, hread] at hsame
  exact congrArg (·.components.schemas) (Option.some.inj hsame)

end Schemas

/-! ## Their order -/

/-- The second value reads as the description that the first one is, with its component schemas in
another order. -/
def Json.ReordersSchemas (json other : Json) : Prop :=
  ∃ schemas, Document.ofJson? other = (Document.ofJson? json).map (·.withSchemas schemas) ∧
    ∀ document ∈ Document.ofJson? json, schemas.Perm document.components.schemas

theorem Json.ReordersSchemas.symm {json other : Json} (hreorders : json.ReordersSchemas other) :
    other.ReordersSchemas json := by
  obtain ⟨schemas, hread, hperm⟩ := hreorders
  cases hdocument : Document.ofJson? json with
  | none => exact ⟨schemas, by simp [hread, hdocument], by simp [hread, hdocument]⟩
  | some document =>
      rw [hdocument, Option.map_some] at hread
      refine ⟨document.components.schemas, by rw [hread, hdocument]; rfl, ?_⟩
      rw [hread]
      rintro _ ⟨⟩
      exact (hperm document hdocument).symm

theorem Json.ReordersSchemas.distinct {json other : Json} (hreorders : json.ReordersSchemas other)
    (hdistinct : ∀ document ∈ Document.ofJson? json,
      Entries.Distinct document.components.schemas) :
    ∀ document ∈ Document.ofJson? other, Entries.Distinct document.components.schemas := by
  obtain ⟨schemas, hread, hperm⟩ := hreorders
  rw [hread]
  intro _ hother
  obtain ⟨document, hdocument, rfl⟩ := Option.map_eq_some_iff.1 hother
  exact ((hperm document hdocument).map Prod.fst).nodup_iff.2 (hdistinct document hdocument)

/-- Where an object holds the component schemas as a member of a member, their entries may be written in
any order. -/
theorem Json.reordersSchemas_of_perm {members parts schemas others : Entries Json}
    (hcomponents : Entries.get? members "components" = some (.object parts))
    (hschemas : Entries.get? parts "schemas" = some (.object schemas))
    (hperm : others.Perm schemas) :
    (Json.object members).ReordersSchemas (.object (Entries.insert members "components"
      (.object (Entries.insert parts "schemas" (.object others))))) := by
  refine ⟨others, Document.ofJson?_insert_schemas hcomponents hschemas others, ?_⟩
  intro document hdocument
  rwa [Document.schemas_of_ofJson?_object hcomponents hschemas hdocument]

/-- The position of the component schema of a name in the description. -/
def Json.schemaId? (json : Json) (name : String) : Option SchemaId :=
  (Document.ofJson? json).bind fun document => document.scope.schemaId? name

namespace Contract

variable {json other : Json} {contract : Contract}

/-- Both descriptions hold the same component schemas, and contracts of them judge each value under
the component of each name alike and validate alike. -/
structure EquivalentBy (json other : Json) (contract contract' : Contract) : Prop where
  components : ∀ (name : String) (formats : FormatRegistry) (allowsExtras : Bool) (value : Value),
    Option.Rel
      (fun id id' => SchemaRules.apply ⟨contract'.schemas, formats, allowsExtras⟩ id' value =
        SchemaRules.apply ⟨contract.schemas, formats, allowsExtras⟩ id value)
      (json.schemaId? name) (other.schemaId? name)
  messages : contract.ValidatesLike contract'

theorem exists_equivalent (hdistinct : ∀ document ∈ Document.ofJson? json,
      Entries.Distinct document.components.schemas)
    (hreorders : json.ReordersSchemas other) (hcompile : ofJson json = .ok contract) :
    ∃ contract', ofJson other = .ok contract' ∧ EquivalentBy json other contract contract' := by
  obtain ⟨document, table, hread, hversion, hrun⟩ := ofJson_eq_ok_iff.1 hcompile
  obtain ⟨schemas, hread', hperm⟩ := hreorders
  rw [hread, Option.map_some] at hread'
  have hrespelled :=
    Document.respelled_withSchemas (hdistinct document hread) (hperm document hread)
  obtain ⟨contract', table', P, hrun', hbelow, halike, hadmits⟩ := hrespelled.exists_straight hrun
  refine ⟨contract', ofJson_eq_ok_iff.2 ⟨_, table', hread', hversion, hrun'⟩, ?_,
    halike.validatesLike hadmits⟩
  intro name formats allowsExtras value
  rw [Json.schemaId?, Json.schemaId?, hread, hread', Option.bind_some, Option.bind_some]
  cases hid : document.scope.schemaId? name with
  | some id =>
      obtain ⟨id', hid', htwin⟩ := hrespelled.schemas.exists_twin hid
      rw [hid']
      exact .some (SchemaRules.apply_congr hadmits halike.schemas formats allowsExtras
        (hbelow.twin _ _ htwin) value)
  | none =>
      have hnone : (document.withSchemas schemas).scope.schemaId? name = none := by
        have hmem := List.idxOf?_eq_none_iff.1 hid
        exact List.idxOf?_eq_none_iff.2 fun hmem' =>
          hmem (((hperm document hread).map Prod.fst).mem_iff.1 hmem')
      rw [hnone]
      exact .none

/-- A description compiles in each order of its component schemas or in none, and its contracts judge
the same values and messages alike. -/
theorem component_order_is_irrelevant (hkeyed : json.Keyed) (hreorders : json.ReordersSchemas other) :
    ((∃ contract, ofJson json = .ok contract) ↔ ∃ contract', ofJson other = .ok contract') ∧
      ∀ contract contract', ofJson json = .ok contract → ofJson other = .ok contract' →
        EquivalentBy json other contract contract' := by
  have hdistinct : ∀ document ∈ Document.ofJson? json,
      Entries.Distinct document.components.schemas :=
    fun document hread => Document.yields_distinct_schemas json hkeyed document hread
  refine ⟨⟨?_, ?_⟩, ?_⟩
  · rintro ⟨contract, hcompile⟩
    obtain ⟨contract', hcompile', -⟩ := exists_equivalent hdistinct hreorders hcompile
    exact ⟨contract', hcompile'⟩
  · rintro ⟨contract', hcompile'⟩
    obtain ⟨contract, hcompile, -⟩ :=
      exists_equivalent (hreorders.distinct hdistinct) hreorders.symm hcompile'
    exact ⟨contract, hcompile⟩
  · intro contract contract' hcompile hcompile'
    obtain ⟨found, hfound, hequivalent⟩ := exists_equivalent hdistinct hreorders hcompile
    obtain rfl : found = contract' := Except.ok.inj (hfound.symm.trans hcompile')
    exact hequivalent

/-- A component that refers to itself and to another one. -/
theorem swapped_components_are_equivalent :
    let leaf : Json := .object [("type", .string "integer")]
    let node : Json := .object [("properties", .object [
      ("next", .reference "#/components/schemas/Node"),
      ("value", .reference "#/components/schemas/Leaf")])]
    let describe (schemas : Entries Json) : Json := .object [("openapi", .string "3.1.0"),
      ("components", .object [("schemas", .object schemas)])]
    let json : Json := describe [("Leaf", leaf), ("Node", node)]
    let other : Json := describe [("Node", node), ("Leaf", leaf)]
    let contract : Contract := { schemas := ⟨#[.ofType .integer,
      { properties := [("next", 1), ("value", 0)] }]⟩ }
    let contract' : Contract := { schemas := ⟨#[{ properties := [("next", 0), ("value", 1)] },
      .ofType .integer]⟩ }
    ofJson json = .ok contract ∧ ofJson other = .ok contract' ∧ json.schemaId? "Node" = some 1 ∧
      other.schemaId? "Node" = some 0 ∧ EquivalentBy json other contract contract' ∧
      ∀ options, Router.BothOrNeither Validator.AgreesWith (Validator.ofContract contract options)
        (Validator.ofContract contract' options) := by
  intro leaf node describe json other contract contract'
  have hkeyed : json.Keyed := by decide +revert
  have hreorders : json.ReordersSchemas other := by
    let members (schemas : Entries Json) : Entries Json :=
      [("openapi", .string "3.1.0"), ("components", .object [("schemas", .object schemas)])]
    have hcomponents : Entries.get? (members [("Leaf", leaf), ("Node", node)]) "components" =
        some (.object [("schemas", .object [("Leaf", leaf), ("Node", node)])]) := rfl
    exact Json.reordersSchemas_of_perm hcomponents rfl (.swap _ _ _)
  have hleaf : ∀ scope : Scope, scope.readComponent leaf = pure (.ofType .integer) := fun _ => rfl
  have hnode : ∀ (scope : Scope) (first second : SchemaId), scope.self? = none →
      scope.schemaId? "Node" = some first → scope.schemaId? "Leaf" = some second →
      scope.readComponent node = pure { properties := [("next", first), ("value", second)] } := by
    intro scope first second hself hfirst hsecond
    have hnext : scope.schemaOf "#/components/schemas/Node" = .ok first :=
      Scope.schemaOf_eq_ok_iff.2 ⟨"Node", by rw [hself]; decide +kernel, hfirst⟩
    have hvalue : scope.schemaOf "#/components/schemas/Leaf" = .ok second :=
      Scope.schemaOf_eq_ok_iff.2 ⟨"Leaf", by rw [hself]; decide +kernel, hsecond⟩
    rw [Scope.readComponent_properties]
    simp only [List.mapM_cons, List.mapM_nil, Scope.placeSchema_reference, hnext, hvalue]
    rfl
  have hcompile : ofJson json = .ok contract := by
    let scope : Scope := ⟨none, { schemas := [("Leaf", leaf), ("Node", node)] }⟩
    have hread : StateT.run scope.readComponents {} = .ok ((), contract.schemas) := by
      simp only [Scope.readComponents, scope, List.zipIdx_cons, List.zipIdx_nil, List.forM_eq_forM,
        List.forM_cons, List.forM_nil, hleaf, hnode scope 1 0 rfl rfl rfl]
      rfl
    exact ofJson_schemas hread
  have hcompile' : ofJson other = .ok contract' := by
    let scope : Scope := ⟨none, { schemas := [("Node", node), ("Leaf", leaf)] }⟩
    have hread : StateT.run scope.readComponents {} = .ok ((), contract'.schemas) := by
      simp only [Scope.readComponents, scope, List.zipIdx_cons, List.zipIdx_nil, List.forM_eq_forM,
        List.forM_cons, List.forM_nil, hleaf, hnode scope 0 1 rfl rfl rfl]
      rfl
    exact ofJson_schemas hread
  have hequivalent : EquivalentBy json other contract contract' :=
    (component_order_is_irrelevant hkeyed hreorders).2 contract contract' hcompile hcompile'
  exact ⟨hcompile, hcompile', rfl, rfl, hequivalent, hequivalent.messages.ofContract⟩

end Contract

end ApiContract
