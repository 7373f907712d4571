import ApiContract.Proofs.PairedContracts
import Mathlib.Tactic

/-!
# Compiled contracts are closed

While a description is compiled, positions are handed out before the schemas at them are known, and
the table grows in the middle of reading other schemas.  In the end, every position that a contract
names is one of its table, so that no look-up during validation misses, and the position of each
component holds what its own body was read as.
-/

namespace ApiContract

/-! ## The positions that are named -/

theorem exists_of_rel {α β : Type} {related : α → β → Prop} {first : Option α} {second : Option β}
    (hrel : Option.Rel related first second) : ∀ value ∈ first, ∃ other, related value other := by
  rintro value rfl
  cases hrel with
  | some hrelated => exact ⟨_, hrelated⟩

theorem exists_of_forall₂ {α β : Type} {related : α → β → Prop} {items : List α} {others : List β}
    (hall : List.Forall₂ related items others) : ∀ item ∈ items, ∃ other, related item other := by
  induction hall with
  | nil => simp
  | cons hfirst _ ih => exact List.forall_mem_cons.2 ⟨⟨_, hfirst⟩, ih⟩

theorem Entries.Paired.exists_of_mem_values {α β : Type} {related : String → α → β → Prop}
    {entries : Entries α} {others : Entries β} (hpaired : Entries.Paired related entries others) :
    ∀ value ∈ Entries.values entries, ∃ name other, related name value other := by
  rintro value hvalue
  obtain ⟨⟨name, _⟩, hentry, rfl⟩ := List.mem_map.1 hvalue
  obtain ⟨other, -, hrelated⟩ := exists_of_forall₂ hpaired _ hentry
  exact ⟨name, other.2, hrelated⟩

/-- The positions of other schemas that a schema names. -/
def Schema.references (schema : Schema) : List SchemaId :=
  Entries.values schema.properties ++ schema.items?.toList ++
    (SchemaTable.furtherSchema? schema).toList ++ schema.members ++
    schema.discriminator?.toList.flatMap fun discriminator => Entries.values discriminator.mapping

def Parameter.references (parameter : Parameter) : List SchemaId := parameter.schema?.toList

def Content.references (content : Content) : List SchemaId :=
  (Entries.values content).filterMap id

def DeclaredResponse.references (response : DeclaredResponse) : List SchemaId :=
  Content.references response.content ++ response.headers.flatMap Parameter.references

/-- The positions of schemas that an operation names, in its parameters, its body and its
responses. -/
def Operation.references (operation : Operation) : List SchemaId :=
  operation.parameters.flatMap Parameter.references ++
    operation.body?.toList.flatMap (fun body => Content.references body.content) ++
    (Entries.values operation.responses).flatMap DeclaredResponse.references

/-- All positions that a contract names are positions of its table. -/
structure Contract.IsClosed (contract : Contract) : Prop where
  schemas : ∀ id schema, contract.schemas.get? id = some schema →
    ∀ part ∈ schema.references, part < contract.schemas.size
  operations : ∀ operation ∈ contract.operations,
    ∀ id ∈ operation.references, id < contract.schemas.size

section Twins

variable {P : Pairing} (hadmits : ∀ filled id, ¬ P.admits filled id)

include hadmits

theorem Schema.Alike.exists_twin {schema other : Schema} (halike : schema.Alike P other) :
    ∀ part ∈ schema.references, ∃ twin, P.twin part twin := by
  intro part hpart
  simp only [references, List.mem_append, Option.mem_toList, List.mem_flatMap] at hpart
  rcases hpart with (((hproperty | hitem) | hfurther) | hmember) | ⟨discriminator, hpick, htarget⟩
  · obtain ⟨_, twin, hseats⟩ := halike.properties.exists_of_mem_values part hproperty
    exact ⟨twin, Pairing.twin_of_seats hadmits hseats⟩
  · exact exists_of_rel halike.items part hitem
  · obtain ⟨twin, filled, hseats⟩ := exists_of_rel (SchemaTable.rel_furtherSchema? halike) part hfurther
    exact ⟨twin, Pairing.twin_of_seats hadmits hseats⟩
  · exact exists_of_forall₂ halike.members part hmember
  · obtain ⟨_, hdiscriminator⟩ := exists_of_rel halike.discriminator discriminator hpick
    obtain ⟨_, twin, htwin⟩ := hdiscriminator.mapping.exists_of_mem_values part htarget
    exact ⟨twin, htwin⟩

theorem Parameter.Alike.exists_twin {parameter other : Parameter} (halike : parameter.Alike P other) :
    ∀ id ∈ parameter.references, ∃ twin, P.twin id twin := by
  intro id hid
  obtain ⟨twin, hseats⟩ := exists_of_rel halike.schema id (Option.mem_toList.1 hid)
  exact ⟨twin, Pairing.twin_of_seats hadmits hseats⟩

theorem Content.Alike.exists_twin {content other : Content} (halike : Content.Alike P content other) :
    ∀ id ∈ content.references, ∃ twin, P.twin id twin := by
  intro id hid
  obtain ⟨schema?, hschema, hsome⟩ := List.mem_filterMap.1 hid
  obtain ⟨_, _, hrel⟩ := Entries.Paired.exists_of_mem_values halike schema? hschema
  obtain ⟨twin, hseats⟩ := exists_of_rel hrel id hsome
  exact ⟨twin, Pairing.twin_of_seats hadmits hseats⟩

theorem DeclaredResponse.Alike.exists_twin {response other : DeclaredResponse}
    (halike : response.Alike P other) : ∀ id ∈ response.references, ∃ twin, P.twin id twin := by
  intro id hid
  rcases List.mem_append.1 hid with hcontent | hheaders
  · exact halike.content.exists_twin hadmits id hcontent
  · obtain ⟨header, hheader, hid⟩ := List.mem_flatMap.1 hheaders
    obtain ⟨_, halikeHeader⟩ := exists_of_forall₂ halike.headers header hheader
    exact halikeHeader.exists_twin hadmits id hid

theorem Operation.Alike.exists_twin {operation other : Operation} (halike : operation.Alike P other) :
    ∀ id ∈ operation.references, ∃ twin, P.twin id twin := by
  intro id hid
  simp only [references, List.mem_append, List.mem_flatMap, Option.mem_toList] at hid
  rcases hid with (⟨parameter, hparameter, hid⟩ | ⟨body, hbody, hid⟩) | ⟨response, hresponse, hid⟩
  · obtain ⟨_, halikeParameter⟩ := exists_of_forall₂ halike.parameters parameter hparameter
    exact halikeParameter.exists_twin hadmits id hid
  · obtain ⟨_, halikeBody⟩ := exists_of_rel halike.body body hbody
    exact halikeBody.content.exists_twin hadmits id hid
  · obtain ⟨_, _, halikeResponse⟩ := halike.responses.exists_of_mem_values response hresponse
    exact halikeResponse.exists_twin hadmits id hid

/-- A contract that has a pairing without ways around is closed. -/
theorem Contract.Alike.isClosed {contract other : Contract} (halike : contract.Alike P other) :
    contract.IsClosed where
  schemas := fun id schema hget part hpart => by
    obtain ⟨twin, htwin⟩ := halike.schemas.total id (SchemaTable.lt_size_of_get? hget)
    obtain ⟨found, _, hfound, -, hschema⟩ := halike.schemas.alike _ _ htwin
    obtain rfl : found = schema := Option.some.inj (hfound.symm.trans hget)
    obtain ⟨other, hother⟩ := hschema.exists_twin hadmits part hpart
    exact (halike.schemas.twin _ _ hother).1
  operations := fun operation hoperation id hid => by
    obtain ⟨_, halikeOperation⟩ := exists_of_forall₂ halike.operations operation hoperation
    obtain ⟨other, hother⟩ := halikeOperation.exists_twin hadmits id hid
    exact (halike.schemas.twin _ _ hother).1

end Twins

/-! ## Schemas behind the table -/

/-- Each position of a table stands for itself. -/
def Pairing.identity (size : ℕ) : Pairing where
  twin := fun first second => first = second ∧ first < size
  detour := fun _ _ => False
  admits := fun _ _ => False

section Identity

variable {size : ℕ}

theorem Pairing.seats_identity {id : SchemaId} (hid : id < size) (filled : Prop) :
    (Pairing.identity size).Seats filled id id :=
  .inl ⟨rfl, hid⟩

theorem rel_self_of_mem {α : Type} {related : α → α → Prop} {value? : Option α}
    (hrefl : ∀ value ∈ value?, related value value) : Option.Rel related value? value? := by
  cases value? with
  | none => exact .none
  | some value => exact .some (hrefl value rfl)

theorem Schema.alike_identity {schema : Schema} (hclosed : ∀ part ∈ schema.references, part < size) :
    schema.Alike (.identity size) schema := by
  simp only [references, List.mem_append, Option.mem_toList, List.mem_flatMap] at hclosed
  have hmember : ∀ part ∈ schema.members, (Pairing.identity size).twin part part :=
    fun part hpart => ⟨rfl, hclosed part (.inl (.inr hpart))⟩
  simp only [members, List.mem_append] at hmember
  constructor
  case properties =>
    refine Entries.paired_self fun entry hentry => Pairing.seats_identity (hclosed entry.2 ?_) _
    exact .inl (.inl (.inl (.inl (List.mem_map.2 ⟨entry, hentry, rfl⟩))))
  case items =>
    exact rel_self_of_mem fun part hpart => ⟨rfl, hclosed part (.inl (.inl (.inl (.inr hpart))))⟩
  case extras =>
    refine rel_self_of_mem fun extras hextras => ?_
    cases extras with
    | allowed isAllowed => exact .allowed isAllowed
    | conforming part =>
        refine .conforming ⟨rfl, hclosed part (.inl (.inl (.inr ?_)))⟩
        simp [SchemaTable.furtherSchema?, Option.mem_def.1 hextras]
  case allOf => exact List.forall₂_same.2 fun part hpart => hmember part (.inl (.inl hpart))
  case oneOf => exact List.forall₂_same.2 fun part hpart => hmember part (.inl (.inr hpart))
  case anyOf => exact List.forall₂_same.2 fun part hpart => hmember part (.inr hpart)
  case discriminator =>
    refine rel_self_of_mem fun discriminator hpick => ⟨rfl, Entries.paired_self fun entry hentry => ?_⟩
    exact ⟨rfl, hclosed entry.2 (.inr ⟨discriminator, hpick, List.mem_map.2 ⟨entry, hentry, rfl⟩⟩)⟩
  all_goals rfl

theorem Parameter.alike_identity {parameter : Parameter}
    (hclosed : ∀ id ∈ parameter.references, id < size) :
    parameter.Alike (.identity size) parameter :=
  ⟨rfl, rfl, rfl, rfl, rfl, rfl, rel_self_of_mem fun id hid =>
    Pairing.seats_identity (hclosed id (Option.mem_toList.2 hid)) _⟩

theorem Content.alike_identity {content : Content} (hclosed : ∀ id ∈ content.references, id < size) :
    Content.Alike (.identity size) content content :=
  Entries.paired_self fun entry hentry => rel_self_of_mem fun id hid =>
    Pairing.seats_identity (hclosed id (List.mem_filterMap.2
      ⟨entry.2, List.mem_map.2 ⟨entry, hentry, rfl⟩, hid⟩)) _

theorem DeclaredResponse.alike_identity {response : DeclaredResponse}
    (hclosed : ∀ id ∈ response.references, id < size) :
    response.Alike (.identity size) response := by
  simp only [references, List.mem_append, List.mem_flatMap] at hclosed
  refine ⟨Content.alike_identity fun id hid => hclosed id (.inl hid), ?_⟩
  exact List.forall₂_same.2 fun header hheader =>
    Parameter.alike_identity fun id hid => hclosed id (.inr ⟨header, hheader, hid⟩)

theorem Operation.alike_identity {operation : Operation}
    (hclosed : ∀ id ∈ operation.references, id < size) :
    operation.Alike (.identity size) operation := by
  simp only [references, List.mem_append, List.mem_flatMap, Option.mem_toList] at hclosed
  constructor
  case parameters =>
    exact List.forall₂_same.2 fun parameter hparameter => Parameter.alike_identity fun id hid =>
      hclosed id (.inl (.inl ⟨parameter, hparameter, hid⟩))
  case body =>
    exact rel_self_of_mem fun body hbody => ⟨rfl, Content.alike_identity fun id hid =>
      hclosed id (.inl (.inr ⟨body, hbody, hid⟩))⟩
  case responses =>
    exact Entries.paired_self fun entry hentry => DeclaredResponse.alike_identity fun id hid =>
      hclosed id (.inr ⟨entry.2, List.mem_map.2 ⟨entry, hentry, rfl⟩, hid⟩)
  all_goals rfl

theorem Contract.IsClosed.settles {contract : Contract} (hclosed : contract.IsClosed)
    {table : SchemaTable} (hextends : contract.schemas.Extends table) :
    (Pairing.identity contract.schemas.size).Settles contract.schemas table where
  twin := by
    rintro id _ ⟨rfl, hid⟩
    exact ⟨hid, Nat.lt_of_lt_of_le hid hextends.size⟩
  detour := fun _ _ hdetour => hdetour.elim
  unique := by
    rintro first _ second _ ⟨rfl, -⟩ ⟨rfl, -⟩
    rfl
  apart := fun _ _ _ _ hdetour => hdetour
  alike := by
    rintro id _ ⟨rfl, hid⟩
    obtain ⟨schema, hget⟩ := SchemaTable.exists_get?_of_lt hid
    exact ⟨schema, schema, hget, hextends.get?_eq_some hget,
      Schema.alike_identity (hclosed.schemas id schema hget)⟩
  leads := fun _ _ hdetour => hdetour.elim
  total := fun id hid => ⟨id, rfl, hid⟩

/-- A closed contract stays the same when schemas are added behind its table. -/
theorem Contract.IsClosed.alike {contract : Contract} (hclosed : contract.IsClosed)
    {table : SchemaTable} (hextends : contract.schemas.Extends table) :
    contract.Alike (.identity contract.schemas.size) { contract with schemas := table } where
  schemas := hclosed.settles hextends
  operations := List.forall₂_same.2 fun operation hoperation =>
    Operation.alike_identity (hclosed.operations operation hoperation)
  securitySchemes := rfl
  basePaths := rfl

end Identity

/-! ## Components -/

/-- The position holds the schema that the body of a component is read as, at some stage of the
table, and what the body adds behind the table of that stage is held as well. -/
def Scope.IsFilledIn (scope : Scope) (final : SchemaTable) (index : ℕ) (body : Json) : Prop :=
  ∃ before after schema, scope.components.schemas.length ≤ before.size ∧
    StateT.run (scope.readComponent body) before = .ok (schema, after) ∧
    final.get? index = some schema ∧
    ∀ id, before.size ≤ id → id < after.size → final.get? id = after.get? id

namespace Document

variable {document : Document} {contract : Contract} {table : SchemaTable}

theorem isFilledIn_of_readComponents (hdistinct : Entries.Distinct document.components.schemas)
    (hrun : StateT.run document.scope.readComponents {} = .ok ((), table)) {index : ℕ}
    {name : String} {body : Json} (hget : document.components.schemas[index]? = some (name, body)) :
    document.scope.IsFilledIn table index body := by
  have hrespelled := (respelled_self hdistinct).schemas
  obtain ⟨stage, after, read, hstaging, rfl, hread⟩ :=
    Scope.exists_staging hrun fun entry hentry _ _ _ hsize hrun =>
      hrespelled.extends_of_read hentry hsize hrun
  have hindex := (List.getElem?_eq_some_iff.1 hget).1
  have hcount := hstaging.count_le_size (Nat.le_of_lt hindex)
  exact ⟨stage index, after index, read index, hcount, hread index _ hget,
    hstaging.get?_component hindex, fun id hle hlt =>
      hstaging.get?_after hindex (Nat.le_trans hcount hle) hlt⟩

/-- The operations only add to the table of the components. -/
theorem exists_components_of_compile (hdistinct : Entries.Distinct document.components.schemas)
    (hrun : StateT.run document.compile {} = .ok (contract, table)) : ∃ components,
      StateT.run document.scope.readComponents {} = .ok ((), components) ∧
        components.Extends contract.schemas := by
  have hrespelled := respelled_self hdistinct
  rw [run_compile] at hrun
  obtain ⟨⟨_, components⟩, hcomponents, hrun⟩ := ok_of_bind_eq_ok hrun
  obtain ⟨schemes, -, hrun⟩ := ok_of_bind_eq_ok hrun
  obtain ⟨security, -, hrun⟩ := ok_of_bind_eq_ok hrun
  obtain ⟨⟨operations, final⟩, hoperations, hrun⟩ := ok_of_bind_eq_ok hrun
  obtain ⟨rfl, rfl⟩ := Prod.mk.inj (Except.ok.inj hrun)
  obtain ⟨components', P, -, hbelow, hsettles⟩ := hrespelled.schemas.exists_settles hcomponents
  obtain ⟨_, _, _, -, hgrows, -⟩ := hrespelled.mirrors_operations
    (hrespelled.schemas.covers.mono hbelow) schemes security components components' hsettles.toFits
    operations final hoperations
  exact ⟨components, hcomponents, hgrows.left⟩

end Document

theorem Scope.IsFilledIn.mono {scope : Scope} {table final : SchemaTable} {index : ℕ} {body : Json}
    (hfilled : scope.IsFilledIn table index body) (hextends : table.Extends final) :
    scope.IsFilledIn final index body := by
  obtain ⟨before, after, schema, hcount, hrun, hget, hbehind⟩ := hfilled
  refine ⟨before, after, schema, hcount, hrun, hextends.get?_eq_some hget, fun id hle hlt => ?_⟩
  obtain ⟨found, hfound⟩ := SchemaTable.exists_get?_of_lt hlt
  rw [hextends.get?_eq_some ((hbehind id hle hlt).trans hfound), hfound]

namespace Contract

variable {json : Json} {contract : Contract}

/-- Every position that a compiled contract names is one of its table, no schema behind the table
could make a difference, and each component stands at the position of its name, filled in with what
its own body was read as. -/
theorem compiled_contract_is_closed (hkeyed : json.Keyed) (hcompile : ofJson json = .ok contract) :
    contract.IsClosed ∧
      (∀ table, contract.schemas.Extends table →
        contract.ValidatesLike { contract with schemas := table } ∧
          ∀ id < contract.schemas.size, ∀ formats allowsExtras value,
            SchemaRules.apply ⟨table, formats, allowsExtras⟩ id value =
              SchemaRules.apply ⟨contract.schemas, formats, allowsExtras⟩ id value) ∧
      ∃ document, Document.ofJson? json = some document ∧
        ∀ index name body, document.components.schemas[index]? = some (name, body) →
          document.scope.schemaId? name = some index ∧
            document.scope.IsFilledIn contract.schemas index body := by
  obtain ⟨document, table, hread, -, hrun⟩ := ofJson_eq_ok_iff.1 hcompile
  have hdistinct := Document.yields_distinct_schemas json hkeyed document hread
  obtain ⟨_, _, P, -, -, halike, hadmits⟩ :=
    (Document.respelled_self hdistinct).exists_straight hrun
  have hclosed : contract.IsClosed := halike.isClosed hadmits
  refine ⟨hclosed, ?_, document, hread, ?_⟩
  · intro table hextends
    have hstraight : ∀ filled id, ¬ (Pairing.identity contract.schemas.size).admits filled id :=
      fun _ _ hadmitted => hadmitted
    exact ⟨(hclosed.alike hextends).validatesLike hstraight,
      fun id hid formats allowsExtras value => SchemaRules.apply_congr hstraight
        (hclosed.settles hextends) formats allowsExtras ⟨rfl, hid⟩ value⟩
  · intro index name body hget
    obtain ⟨components, hcomponents, hextends⟩ :=
      Document.exists_components_of_compile hdistinct hrun
    exact ⟨(Scope.schemaId?_eq_some_iff hdistinct).2 ⟨body, hget⟩,
      (Document.isFilledIn_of_readComponents hdistinct hcomponents hget).mono hextends⟩

/-- A component that refers to one behind it, which has a schema inside. -/
theorem forward_reference_is_filled_in :
    let list : Json := .object [("items", .object [("type", .string "integer")])]
    let holder : Json := .object [("properties",
      .object [("values", .reference "#/components/schemas/List")])]
    let json : Json := .object [("openapi", .string "3.1.0"), ("components", .object [
      ("schemas", .object [("Holder", holder), ("List", list)])])]
    let scope : Scope := ⟨none, { schemas := [("Holder", holder), ("List", list)] }⟩
    let contract : Contract := { schemas := ⟨#[{ properties := [("values", 1)] },
      { items? := some 2 }, .ofType .integer]⟩ }
    ofJson json = .ok contract ∧ contract.IsClosed ∧ scope.schemaId? "List" = some 1 ∧
      scope.IsFilledIn contract.schemas 1 list := by
  intro list holder json scope contract
  have hkeyed : json.Keyed := by decide +revert
  have hid : scope.schemaOf "#/components/schemas/List" = .ok 1 :=
    Scope.schemaOf_eq_ok_iff.2 ⟨"List", by decide +kernel, rfl⟩
  have hholder : scope.readComponent holder = pure { properties := [("values", 1)] } := by
    rw [Scope.readComponent_properties]
    simp only [List.mapM_cons, List.mapM_nil, Scope.placeSchema_reference, hid]
    rfl
  have hlist : scope.readComponent list =
      (Compilation.push (.ofType .integer) >>= fun id => pure { items? := some id }) := by
    unfold Scope.readComponent
    simp only [Scope.placeSchema_eq]
    rfl
  have hread : StateT.run scope.readComponents {} = .ok ((), contract.schemas) := by
    simp only [Scope.readComponents, scope, List.zipIdx_cons, List.zipIdx_nil, List.forM_eq_forM,
      List.forM_cons, List.forM_nil, hholder, hlist]
    rfl
  have hcompile : ofJson json = .ok contract := ofJson_schemas hread
  obtain ⟨hclosed, -, document, hdocument, hfilled⟩ := compiled_contract_is_closed hkeyed hcompile
  obtain rfl := Option.some.inj hdocument
  exact ⟨hcompile, hclosed, hfilled 1 "List" list rfl⟩

end Contract

end ApiContract
