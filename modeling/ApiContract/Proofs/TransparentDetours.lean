import ApiContract.Proofs.ComponentOrder
import ApiContract.Proofs.Detours
import ApiContract.Proofs.MergedLeaves
import Mathlib.Tactic

/-!
# Ways around a reference

Where a property, a parameter or a body refers to a component, a description may stand beside the
reference, or the reference may lead through another component that is nothing but a reference.  The
contract then holds a detour there.  Outcomes stay the same as far as no default of the component is
filled in and no search through members is cut off: such a detour is a conjunction with one conjunct,
and the defaults of conjuncts are not looked for.
-/

namespace ApiContract

namespace Contract

variable {P : Pairing} {contract contract' : Contract} {depth levels : ℕ} {hidden : SchemaId → Prop}

section Alike

variable (halike : contract.Alike P contract') (hplain : contract.schemas.IsPlain)
  (hallows : ∀ filled id, P.admits filled id → contract.schemas.AllowsDetour depth id)
  (hhidden : ∀ id, P.admits True id → hidden id)

include halike hplain hallows hhidden

theorem Alike.apply_seats (formats : FormatRegistry) (allowsExtras : Bool) {filled : Prop}
    {first second : SchemaId} {value : Value} (hseats : P.Seats filled first second)
    (hvalue : contract.schemas.Admits hidden first value) :
    SchemaRules.apply ⟨contract'.schemas, formats, allowsExtras⟩ second value =
      SchemaRules.apply ⟨contract.schemas, formats, allowsExtras⟩ first value := by
  have hrules : SchemaRules.Correspond P ⟨contract.schemas, formats, allowsExtras⟩
      ⟨contract'.schemas, formats, allowsExtras⟩ :=
    ⟨halike.schemas, rfl, rfl⟩
  have hsees : SchemaRules.SeesThrough P _ _ (contract.schemas.Admits hidden) :=
    SchemaRules.seesThrough hrules hplain.keyed (fun _ _ hgood => hgood.plain)
      fun filled id schema hadmits hget => (hallows filled id hadmits).null schema hget
  exact SchemaRules.apply_seats hrules (SchemaTable.inherits_admits hplain hhidden) hsees hseats
    hvalue

theorem Alike.tablesAgree (hlevels : levels + depth + 2 ≤ SchemaTable.coercionSteps) :
    contract.TablesAgree P (contract.schemas.readable hidden levels)
      (contract.schemas.Admits hidden) contract' where
  shapes := fun _ _ _ hseats =>
    Shape.of_seats halike.schemas (fun filled id hadmits => (hallows filled id hadmits).shape) hseats
  casts := fun _ _ _ _ hseats hbody htextual =>
    SchemaTable.coerceAt_seats halike.schemas (SchemaTable.passesDown_fitsLevels depth)
      (SchemaTable.leavesRoom hallows) _ _ ⟨levels, hbody.2 htextual, hlevels⟩ _ _ _ hseats
  judges := fun formats allowsExtras _ _ _ _ hseats hvalue =>
    halike.apply_seats hplain hallows hhidden formats allowsExtras hseats hvalue
  good_of_readable := fun _ _ hbody => hbody.1
  good_coerce := fun id body hbody =>
    ⟨SchemaTable.isPlain_coerceAt _ id body.value hbody.1.plain,
      hbody.1.spares.of_rereads ⟨_, id, rfl⟩⟩
  good_default := fun id schema literal hget hdefault hliteral =>
    ⟨hplain.defaults id schema literal hget hdefault, hliteral.2⟩
  bare := fun id _ hliteral hadmits => hliteral.1 (hhidden id hadmits)

end Alike

/-- Contracts of two descriptions judge under the component of each name of the first one all values
alike, and validate alike all messages, as far as these are plain, go down few levels and need no
default that a detour would hide. -/
structure EquivalentApart (hidden : SchemaId → Prop) (levels : ℕ) (json other : Json)
    (contract contract' : Contract) : Prop where
  components : ∀ name id, json.schemaId? name = some id → ∃ id', other.schemaId? name = some id' ∧
    ∀ formats allowsExtras value, contract.schemas.Admits hidden id value →
      SchemaRules.apply ⟨contract'.schemas, formats, allowsExtras⟩ id' value =
        SchemaRules.apply ⟨contract.schemas, formats, allowsExtras⟩ id value
  messages : contract.ValidatesLikeOn (contract.schemas.readable hidden levels) contract'

/-- Where the references of properties, parameters and bodies are led through detours, the description
still compiles, and its contract gives the same outcomes unless one of them fills in a default that a
detour hides. -/
theorem detours_are_transparent {ρ : Rerouting} {json other : Json} {document document' : Document}
    (hread : Document.ofJson? json = some document)
    (hread' : Document.ofJson? other = some document') (hrespelled : document.Respelled ρ document')
    (hcompile : ofJson json = .ok contract) (hplain : contract.schemas.IsPlain)
    (hallows : ∀ filled target id, ρ.admits filled target →
      document.scope.schemaOf target = .ok id → contract.schemas.AllowsDetour depth id)
    (hlevels : levels + depth + 2 ≤ SchemaTable.coercionSteps) :
    ∃ contract', ofJson other = .ok contract' ∧
      EquivalentApart
        (fun id => ∃ target, ρ.admits True target ∧ document.scope.schemaOf target = .ok id)
        levels json other contract contract' := by
  obtain ⟨found, table, hfound, hversion, hrun⟩ := ofJson_eq_ok_iff.1 hcompile
  obtain rfl : found = document := Option.some.inj (hfound.symm.trans hread)
  obtain ⟨contract', table', P, hrun', hbelow, halike⟩ := hrespelled.exists_alike hrun
  have hversion' : document'.checkVersion = .ok () := by
    unfold Document.checkVersion
    rw [hrespelled.openapi, hrespelled.swagger]
    exact hversion
  have hadmits : ∀ filled id, P.admits filled id →
      ∃ target, ρ.admits filled target ∧ found.scope.schemaOf target = .ok id :=
    fun filled id => (hbelow.admits filled id).2
  have hroom : ∀ filled id, P.admits filled id → contract.schemas.AllowsDetour depth id := by
    intro filled id hid
    obtain ⟨target, htarget, hid⟩ := hadmits filled id hid
    exact hallows filled target id htarget hid
  refine ⟨contract', ofJson_eq_ok_iff.2 ⟨_, table', hread', hversion', hrun'⟩, ?_,
    halike.validatesLikeOn (halike.tablesAgree hplain hroom (hadmits True) hlevels)⟩
  intro name id hid
  simp only [Json.schemaId?, hread, hread', Option.bind_some] at hid ⊢
  obtain ⟨id', hid', htwin⟩ := hrespelled.schemas.exists_twin hid
  have hseats : P.Seats False id id' := .inl (hbelow.twin _ _ htwin)
  exact ⟨id', hid', fun formats allowsExtras value hvalue =>
    halike.apply_seats hplain hroom (hadmits True) formats allowsExtras hseats hvalue⟩

/-- A component that refers to itself through another component, and to a component with a default
beside a description. -/
theorem detours_in_list_are_transparent :
    let leaf : Json := .object [("type", .string "string"), ("default", .string "none")]
    let toLeaf := "#/components/schemas/Leaf"
    let toNode := "#/components/schemas/Node"
    let toAlias := "#/components/schemas/Alias"
    let node (next value : Json) : Json :=
      .object [("properties", .object [("next", next), ("value", value)])]
    let describe (schemas : Entries Json) : Json := .object [("openapi", .string "3.1.0"),
      ("components", .object [("schemas", .object schemas)])]
    let schemas : Entries Json :=
      [("Leaf", leaf), ("Node", node (.reference toNode) (.reference toLeaf))]
    let others : Entries Json := [("Leaf", leaf),
      ("Node", node (.reference toAlias)
        (.object [("$ref", .string toLeaf), ("description", .string "A name.")])),
      ("Alias", .reference toNode)]
    let scope : Scope := ⟨none, { schemas }⟩
    let hidden (id : SchemaId) : Prop :=
      ∃ target, (target = toLeaf ∨ target = toNode) ∧ scope.schemaOf target = .ok id
    let contract : Contract := { schemas := ⟨#[
      { type? := some .string, default? := some (.string "none") },
      { properties := [("next", 1), ("value", 0)] }]⟩ }
    let named := Value.object [("value", .string "a")]
    ofJson (describe schemas) = .ok contract ∧ contract.schemas.Admits hidden 1 named ∧
      ∃ contract', ofJson (describe others) = .ok contract' ∧
        EquivalentApart hidden 63 (describe schemas) (describe others) contract contract' := by
  intro leaf toLeaf toNode toAlias node describe schemas others scope hidden contract named
  let document (schemas : Entries Json) : Document :=
    ⟨some "3.1.0", none, none, [], [], { schemas }, none⟩
  have hleafId : scope.schemaOf toLeaf = .ok 0 :=
    Scope.schemaOf_eq_ok_iff.2 ⟨"Leaf", by decide +kernel, rfl⟩
  have hnodeId : scope.schemaOf toNode = .ok 1 :=
    Scope.schemaOf_eq_ok_iff.2 ⟨"Node", by decide +kernel, rfl⟩
  have hcompile : ofJson (describe schemas) = .ok contract := by
    have hleaf : scope.readComponent leaf =
        pure { type? := some .string, default? := some (.string "none") } := rfl
    have hnode : scope.readComponent (node (.reference toNode) (.reference toLeaf)) =
        pure { properties := [("next", 1), ("value", 0)] } := by
      rw [Scope.readComponent_properties]
      simp only [List.mapM_cons, List.mapM_nil, Scope.placeSchema_reference, hleafId, hnodeId]
      rfl
    have hread : StateT.run scope.readComponents {} = .ok ((), contract.schemas) := by
      simp only [Scope.readComponents, scope, schemas, List.zipIdx_cons, List.zipIdx_nil,
        List.forM_eq_forM, List.forM_cons, List.forM_nil, hleaf, hnode]
      rfl
    exact ofJson_schemas hread
  -- The two references may be led through detours, whether or not a default is filled in.
  let ρ : Rerouting := {
    admits := fun _ target => target = toLeaf ∨ target = toNode
    forwards := fun target forward => target = toNode ∧ forward = toAlias }
  have hnodes : Json.Respelled ρ none (node (.reference toNode) (.reference toLeaf))
      (node (.reference toAlias)
        (.object [("$ref", .string toLeaf), ("description", .string "A name.")])) := by
    refine Json.MembersRespelled.respelled ?_ none
    refine ⟨rfl, ?_, ?_, ?_, ?_⟩
    · intro keyword hkeyword
      have hne : "properties" ≠ keyword := fun heq => hkeyword.1 heq.symm
      simp [Entries.get?, hne]
    · refine .cons ⟨rfl, .forwarded ⟨rfl, rfl⟩ (.inr rfl)⟩ (.cons ⟨rfl, ?_⟩ .nil)
      exact .described toLeaf _ (.inl rfl)
    · intro keyword hkeyword
      rcases List.mem_cons.1 hkeyword with rfl | hkeyword
      · exact .none
      · obtain rfl := List.mem_singleton.1 hkeyword
        exact .none
    · intro keyword hkeyword
      simp only [Json.listKeywords, List.mem_cons, List.not_mem_nil, or_false] at hkeyword
      rcases hkeyword with rfl | rfl | rfl <;> exact .nil
  have hrespelled : (document schemas).Respelled ρ (document others) := by
    constructor
    case schemas =>
      constructor
      case self => rfl
      case distinct => exact (by decide : Entries.Distinct schemas)
      case others_distinct => exact (by decide : Entries.Distinct others)
      case schemas =>
        intro name found hget
        rcases List.mem_cons.1 (Entries.mem_of_get? hget) with heq | hmem
        · obtain ⟨rfl, rfl⟩ := Prod.mk.inj heq
          exact ⟨leaf, rfl, .same none leaf⟩
        · obtain ⟨rfl, rfl⟩ := Prod.mk.inj (List.mem_singleton.1 hmem)
          exact ⟨_, rfl, hnodes⟩
      case others =>
        intro name found hget hnew
        rcases List.mem_cons.1 (Entries.mem_of_get? hget) with heq | hmem
        · obtain ⟨rfl, rfl⟩ := Prod.mk.inj heq
          cases hnew
        rcases List.mem_cons.1 hmem with heq | hmem
        · obtain ⟨rfl, rfl⟩ := Prod.mk.inj heq
          cases hnew
        · obtain ⟨rfl, rfl⟩ := Prod.mk.inj (List.mem_singleton.1 hmem)
          exact ⟨by decide, toNode, 1, rfl, hnodeId⟩
      case forwards =>
        rintro _ _ ⟨rfl, rfl⟩
        exact ⟨"Alias", by decide +kernel, rfl, rfl⟩
    case sections => constructor <;> first | exact .nil | rfl
    case paths => exact .nil
    all_goals rfl
  have hplain : contract.schemas.IsPlain := by
    constructor
    · have hdistinct : Entries.Distinct [("next", 1), ("value", 0)] := by decide
      have hempty : Entries.Distinct ([] : Entries SchemaId) := by decide
      simp [SchemaTable.isKeyed_iff, contract, hdistinct, hempty, Json.Keyed.string]
    · have hall : ∀ id schema, contract.schemas.get? id = some schema →
          ∀ literal, schema.default? = some literal → (Value.ofJson literal).IsPlain := by
        rw [SchemaTable.forall_get?_iff]
        simp [contract, Value.ofJson, SchemaTable.isPlain_string]
      exact fun id schema literal hget => hall id schema hget literal
  have hallows : ∀ filled target id, ρ.admits filled target → scope.schemaOf target = .ok id →
      contract.schemas.AllowsDetour 0 id := by
    rintro filled target id (rfl | rfl) hid
    · obtain rfl := Except.ok.inj (hleafId.symm.trans hid)
      exact SchemaTable.allowsDetour_of_membersNestWithin (by decide) rfl rfl
    · obtain rfl := Except.ok.inj (hnodeId.symm.trans hid)
      exact SchemaTable.allowsDetour_of_membersNestWithin (by decide) rfl rfl
  obtain ⟨contract', hcompile', hequivalent⟩ := detours_are_transparent
    (rfl : Document.ofJson? (describe schemas) = some (document schemas))
    (rfl : Document.ofJson? (describe others) = some (document others)) hrespelled hcompile hplain
    hallows (by decide : 63 + 0 + 2 ≤ SchemaTable.coercionSteps)
  have hnone : ∀ name property literal, ¬ contract.schemas.FillsIn
      { properties := [("next", 1), ("value", 0)] } named name property literal := by
    rintro name property literal ⟨-, members, hobject, hmem, habsent, -, found, hget, hdefault⟩
    obtain rfl := Value.object.inj hobject
    rcases List.mem_cons.1 hmem with heq | hmem
    · obtain ⟨rfl, rfl⟩ := Prod.mk.inj heq
      obtain rfl := Option.some.inj hget
      cases hdefault
    · obtain ⟨rfl, rfl⟩ := Prod.mk.inj (List.mem_singleton.1 hmem)
      exact habsent (List.mem_singleton.2 rfl)
  have hcomes : ∀ part inner, contract.schemas.ComesTo 1 named part inner →
      (part = 1 ∧ inner = named) ∨ (part = 0 ∧ inner = .string "a") := by
    intro part inner hcomes
    induction hcomes with
    | self => exact .inl ⟨rfl, rfl⟩
    | here _ hget hmem ih =>
        rcases ih with ⟨rfl, rfl⟩ | ⟨rfl, rfl⟩ <;> obtain rfl := Option.some.inj hget <;> cases hmem
    | inside _ hget hasks ih =>
        rcases ih with ⟨rfl, rfl⟩ | ⟨rfl, rfl⟩ <;> obtain rfl := Option.some.inj hget
        · change Schema.Asks _ (.object [("value", .string "a")]) _ _ at hasks
          cases hasks with
          | declared hmem hdeclared =>
              obtain ⟨rfl, rfl⟩ := Prod.mk.inj (List.mem_singleton.1 hmem)
              exact .inr ⟨(Option.some.inj hdeclared).symm, rfl⟩
          | further _ _ hextras => cases hextras
        · cases hasks
    | filled _ hget hfills ih =>
        rcases ih with ⟨rfl, rfl⟩ | ⟨rfl, rfl⟩ <;> obtain rfl := Option.some.inj hget
        · exact absurd hfills (hnone _ _ _)
        · cases hfills.1
  refine ⟨hcompile, ⟨?_, ?_⟩, contract', hcompile', hequivalent⟩
  · refine Value.isPlain_object (by decide) ?_
    rw [List.forall_mem_singleton]
    exact SchemaTable.isPlain_string "a"
  · intro part inner schema name property literal hpart hget hfills
    rcases hcomes part inner hpart with ⟨rfl, rfl⟩ | ⟨rfl, rfl⟩ <;> obtain rfl := Option.some.inj hget
    · exact absurd hfills (hnone name property literal)
    · cases hfills.1

/-- A property with a default that is filled in behind a reference, but neither behind one with a
description beside it nor behind one that leads through another component. -/
theorem detour_hides_default :
    let leaf : Json := .object [("type", .string "string"), ("default", .string "none")]
    let toLeaf := "#/components/schemas/Leaf"
    let toAlias := "#/components/schemas/Alias"
    let node (value : Json) : Json := .object [("properties", .object [("value", value)])]
    let describe (schemas : Entries Json) : Json := .object [("openapi", .string "3.1.0"),
      ("components", .object [("schemas", .object schemas)])]
    let json : Json := describe [("Leaf", leaf), ("Node", node (.reference toLeaf))]
    let described : Json := describe [("Leaf", leaf),
      ("Node", node (.object [("$ref", .string toLeaf), ("description", .string "A name.")]))]
    let aliased : Json := describe [("Leaf", leaf), ("Node", node (.reference toAlias)),
      ("Alias", .reference toLeaf)]
    ∃ contract contract', ofJson json = .ok contract ∧ ofJson described = .ok contract' ∧
      ofJson aliased = .ok contract' ∧ json.schemaId? "Node" = some 1 ∧
      described.schemaId? "Node" = some 1 ∧ aliased.schemaId? "Node" = some 1 ∧
      SchemaRules.apply ⟨contract.schemas, Format.standard, false⟩ 1 (.object []) =
        .accepted (.object [("value", .string "none")]) ∧
      SchemaRules.apply ⟨contract'.schemas, Format.standard, false⟩ 1 (.object []) =
        .accepted (.object []) := by
  intro leaf toLeaf toAlias node describe json described aliased
  let filled : Schema := { type? := some .string, default? := some (.string "none") }
  let contract : Contract := { schemas := ⟨#[filled, { properties := [("value", 0)] }]⟩ }
  let contract' : Contract := { schemas := ⟨#[filled, { properties := [("value", 2)] }, .detour 0]⟩ }
  have hleaf : ∀ scope : Scope, scope.readComponent leaf = pure filled := fun _ => rfl
  have htoLeaf : ∀ scope : Scope, scope.self? = none → scope.schemaId? "Leaf" = some 0 →
      scope.schemaOf toLeaf = .ok 0 := fun scope hself hid =>
    Scope.schemaOf_eq_ok_iff.2 ⟨"Leaf", by rw [hself]; decide +kernel, hid⟩
  have hplain : ∀ (scope : Scope) (target : String) (id : SchemaId), scope.schemaOf target = .ok id →
      scope.readComponent (node (.reference target)) = pure { properties := [("value", id)] } := by
    intro scope target id hid
    rw [Scope.readComponent_properties]
    simp only [List.mapM_cons, List.mapM_nil, Scope.placeSchema_reference, hid]
    rfl
  have hcompile : ofJson json = .ok contract := by
    let scope : Scope := ⟨none, { schemas := [("Leaf", leaf), ("Node", node (.reference toLeaf))] }⟩
    have hread : StateT.run scope.readComponents {} = .ok ((), contract.schemas) := by
      simp only [Scope.readComponents, scope, List.zipIdx_cons, List.zipIdx_nil, List.forM_eq_forM,
        List.forM_cons, List.forM_nil, hleaf, hplain scope toLeaf 0 (htoLeaf scope rfl rfl)]
      rfl
    exact ofJson_schemas hread
  have hdescribed : ofJson described = .ok contract' := by
    let detour : Json := .object [("$ref", .string toLeaf), ("description", .string "A name.")]
    let scope : Scope := ⟨none, { schemas := [("Leaf", leaf), ("Node", node detour)] }⟩
    have hdetour : scope.placeSchema detour = Compilation.push (.detour 0) := by
      have hplace : scope.placeSchema detour = scope.readComponent detour >>= Compilation.push :=
        scope.placeSchema_eq detour
      rw [hplace, Scope.readComponent_described, htoLeaf scope rfl rfl]
      rfl
    have hnode : scope.readComponent (node detour) =
        Compilation.push (.detour 0) >>= fun id => pure { properties := [("value", id)] } := by
      rw [Scope.readComponent_properties]
      simp only [List.mapM_cons, List.mapM_nil, hdetour]
      rfl
    have hread : StateT.run scope.readComponents {} = .ok ((), contract'.schemas) := by
      simp only [Scope.readComponents, scope, List.zipIdx_cons, List.zipIdx_nil, List.forM_eq_forM,
        List.forM_cons, List.forM_nil, hleaf, hnode]
      rfl
    exact ofJson_schemas hread
  have haliased : ofJson aliased = .ok contract' := by
    let scope : Scope := ⟨none, { schemas := [("Leaf", leaf), ("Node", node (.reference toAlias)),
      ("Alias", .reference toLeaf)] }⟩
    have htoAlias : scope.schemaOf toAlias = .ok 2 :=
      Scope.schemaOf_eq_ok_iff.2 ⟨"Alias", by decide +kernel, rfl⟩
    have halias : scope.readComponent (.reference toLeaf) = pure (.detour 0) := by
      rw [Scope.readComponent_reference, htoLeaf scope rfl rfl]
      rfl
    have hread : StateT.run scope.readComponents {} = .ok ((), contract'.schemas) := by
      simp only [Scope.readComponents, scope, List.zipIdx_cons, List.zipIdx_nil, List.forM_eq_forM,
        List.forM_cons, List.forM_nil, hleaf, hplain scope toAlias 2 htoAlias, halias]
      rfl
    exact ofJson_schemas hread
  refine ⟨contract, contract', hcompile, hdescribed, haliased, rfl, rfl, rfl, by cbv, ?_⟩
  rw [SchemaRules.apply, SchemaRules.applyAt_eq_judge rfl List.not_mem_nil]
  rfl

end Contract

/-! ## What else a detour hides -/

/-- An absent parameter has no value behind a detour, whatever default the schema behind it has. -/
theorem Validator.parameterValue?_detour {validator : Validator} {parameter : Parameter}
    {sources : ParameterSources} {id target : SchemaId} (hid : parameter.schema? = some id)
    (hget : validator.contract.schemas.get? id = some (.detour target))
    (habsent : validator.styles.extract validator.contract.schemas parameter sources = .ok none) :
    validator.parameterValue? parameter sources = .ok none := by
  rw [parameterValue?, habsent, hid, Option.bind_some, hget]
  rfl

namespace SchemaRules

/-- A detour around a schema and so many around that detour, each around the one before. -/
def detoursAround (schema : Schema) (count : ℕ) : SchemaRules where
  schemas := ⟨(schema :: (List.range count).map Schema.detour).toArray⟩
  formats := Format.standard

theorem leadsIn_detoursAround {schema : Schema} {count : ℕ} (total : ℕ) (hle : count ≤ total) :
    (detoursAround schema total).schemas.LeadsIn 0 count count := by
  induction count with
  | zero => exact .here
  | succ count ih =>
      have hget : (detoursAround schema total).schemas.get? (count + 1) = some (.detour count) := by
        simp [detoursAround, SchemaTable.get?, Nat.lt_of_succ_le hle]
      exact .detour hget (ih (Nat.le_of_succ_le hle))

/-- The searches through members have a number of steps each, of which a detour takes one.  So behind
one more detour null is refused, a parameter is no list any more and a text is not read. -/
theorem one_more_detour_exhausts_searches :
    let note := detoursAround { nullable := true } 34
    let list := detoursAround (.ofType .array) 16
    let number := detoursAround (.ofType .integer) 65
    note.apply 33 .null = .accepted .null ∧ note.apply 34 .null = refuse .nullNotAllowed ∧
      Shape.of list.schemas (some 15) = .array ∧ Shape.of list.schemas (some 16) = .primitive ∧
      number.schemas.coerce 64 (.string "7") = .integer 7 ∧
      number.schemas.coerce 65 (.string "7") = .string "7" := by
  intro note list number
  have hnote : note.schemas.get? 0 = some { nullable := true } := rfl
  refine ⟨?_, ?_, ?_, ?_, ?_, ?_⟩
  · rw [apply_null_of_leadsIn (leadsIn_detoursAround 34 (by decide)) hnote rfl]
    rfl
  · rw [apply_null_of_leadsIn (leadsIn_detoursAround 34 le_rfl) hnote rfl]
    rfl
  · rw [SchemaTable.shape_of_leadsIn (leadsIn_detoursAround 16 (by decide))]
    rfl
  · rw [SchemaTable.shape_of_leadsIn (leadsIn_detoursAround 16 le_rfl)]
    rfl
  · rw [SchemaTable.coerce_text_of_leadsIn (leadsIn_detoursAround 65 (by decide))]
    with_unfolding_all rfl
  · rw [SchemaTable.coerce_text_of_leadsIn (leadsIn_detoursAround 65 le_rfl)]
    rfl

/-- Behind a detour, a value that differs from itself is accepted as it came in. -/
theorem apply_detour_of_not_same {rules : SchemaRules} {id target : SchemaId} {value typed : Value}
    (hget : rules.schemas.get? id = some (.detour target))
    (hvalue : ∀ members, value ≠ .object members) (hdiffers : ¬ value.same value)
    (hbehind : rules.applyAt [] [id] target value = .accepted typed) :
    rules.apply id value = .accepted value := by
  have hnull : value ≠ .null := fun heq => hdiffers (heq ▸ rfl)
  have hmerge : value.merge value typed = value := by
    rcases Value.merge_of_not_same hdiffers with hmerge | ⟨members, -, heq, -⟩
    · exact hmerge
    · exact absurd heq (hvalue members)
  rw [apply, applyAt_eq_judge hget List.not_mem_nil, judge_of_ne_null hnull,
    judgeParts_detour_eq (isExplained_applyAt _ _ _ _ _)]
  exact (congrArg (Judgement.map (value.merge value)) hbehind).trans (congrArg Judgement.accepted hmerge)

/-- A day that is typed in a list, but not behind a detour around the list, because the list also
holds a number that differs from itself. -/
theorem day_beside_nan_stays_text_behind_detour :
    let day : Schema := { type? := some .string, format? := some "date" }
    let entry : Schema := { properties := [("day", 2)] }
    let rules : SchemaRules := {
      schemas := ⟨#[{ items? := some 1 }, entry, day, .detour 0]⟩
      formats := Format.standard }
    let list (day : Value) := Value.array [.object [("day", day), ("offset", .number .nan)]]
    let value := list (.string "2024-02-29")
    rules.apply 0 value = .accepted (list (.date ⟨2024, 2, 29, by decide⟩)) ∧
      rules.apply 3 value = .accepted value := by
  intro day entry rules list value
  have hbehind : rules.applyAt [] [3] 0 value =
      .accepted (list (.date ⟨2024, 2, 29, by decide⟩)) := by cbv
  have hdiffers : ¬ value.same value := by decide +kernel
  exact ⟨by cbv, apply_detour_of_not_same rfl (by simp [value, list]) hdiffers hbehind⟩

end SchemaRules

end ApiContract
