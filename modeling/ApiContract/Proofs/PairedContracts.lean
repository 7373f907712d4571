import ApiContract.Proofs.PairedExchanges

/-!
# Contracts that correspond without ways around

Where a description takes no way around, positions stand for each other only as twins, and then
nothing that a validator does can tell two contracts apart that are alike.  A description whose
component schemas come in another order is such a one, and so is the description itself.
-/

namespace ApiContract

/-! ## The same parts -/

theorem rel_self {α : Type} {related : α → α → Prop} (hrefl : ∀ value, related value value)
    (value? : Option α) : Option.Rel related value? value? := by
  cases value? with
  | none => exact .none
  | some value => exact .some (hrefl value)

theorem Json.readsAlike_self {α : Type} {read : JsonReader α} {related : α → α → Prop}
    (hrefl : ∀ entry, related entry entry) (json : Json) : json.ReadsAlike read related json :=
  ⟨rfl, fun entry hentry => ⟨entry, hentry, hrefl entry⟩⟩

section Same

variable (ρ : Rerouting)

theorem schemaOrContent_self (filled : Prop) (schema? : Option Json)
    (content? : Option (Entries (Option Json))) :
    SchemaOrContent ρ filled schema? content? schema? content? where
  schema := rel_self (fun json => .same _ json) schema?
  content := rel_self (fun _ => Entries.paired_self fun _ _ =>
    rel_self (fun json => .same _ json) _) content?

theorem parameterEntry_respelled_self (entry : ParameterEntry) : entry.Respelled ρ entry :=
  ⟨rfl, rfl, rfl, rfl, rfl, schemaOrContent_self ρ _ _ _⟩

theorem headerEntry_respelled_self (entry : HeaderEntry) : entry.Respelled ρ entry :=
  ⟨rfl, rfl, rfl, schemaOrContent_self ρ _ _ _⟩

theorem requestBodyEntry_respelled_self (entry : RequestBodyEntry) : entry.Respelled ρ entry :=
  ⟨rfl, Entries.paired_self fun _ _ => rel_self (fun json => .same _ json) _⟩

theorem responseEntry_respelled_self (entry : ResponseEntry) : entry.Respelled ρ entry :=
  ⟨Entries.paired_self fun _ _ => rel_self (fun json => .same _ json) _,
    Entries.paired_self fun _ _ => Json.readsAlike_self (headerEntry_respelled_self ρ) _⟩

theorem operationEntry_respelled_self (entry : OperationEntry) : entry.Respelled ρ entry where
  operationId := rfl
  parameters := List.forall₂_same.2 fun _ _ =>
    Json.readsAlike_self (parameterEntry_respelled_self ρ) _
  body := rel_self (Json.readsAlike_self (requestBodyEntry_respelled_self ρ)) _
  responses := Entries.paired_self fun _ _ =>
    Json.readsAlike_self (responseEntry_respelled_self ρ) _
  security := rfl

theorem pathItem_respelled_self (item : PathItem) : item.Respelled ρ item where
  parameters := List.forall₂_same.2 fun _ _ =>
    Json.readsAlike_self (parameterEntry_respelled_self ρ) _
  operations := Entries.paired_self fun entry _ => operationEntry_respelled_self ρ entry.2

end Same

/-! ## Another order of the component schemas -/

/-- No way around is ever taken. -/
def Rerouting.straight : Rerouting where
  admits := fun _ _ => False
  forwards := fun _ _ => False

/-- The description with other component schemas. -/
def Document.withSchemas (document : Document) (schemas : Entries Json) : Document :=
  { document with components := { document.components with schemas } }

namespace Document

variable {document : Document} {schemas : Entries Json}

theorem schemas_respelled (hdistinct : Entries.Distinct document.components.schemas)
    (hperm : schemas.Perm document.components.schemas) :
    document.scope.Respelled .straight (document.withSchemas schemas).scope := by
  have hdistinct' : Entries.Distinct schemas :=
    (hperm.map Prod.fst).nodup_iff.2 hdistinct
  have hsame : ∀ name, Entries.get? schemas name = Entries.get? document.components.schemas name := by
    intro name
    ext json
    rw [hdistinct'.get?_eq_some_iff, hdistinct.get?_eq_some_iff, hperm.mem_iff]
  constructor
  case self => rfl
  case distinct => exact hdistinct
  case others_distinct => exact hdistinct'
  case schemas => exact fun name json hget => ⟨json, (hsame name).trans hget, .same none json⟩
  case others =>
    intro name json hget hnone
    rw [show (document.withSchemas schemas).scope.components.schemas = schemas from rfl, hsame name,
      show document.components.schemas = document.scope.components.schemas from rfl, hnone] at hget
    cases hget
  case forwards => exact fun _ _ hforwards => hforwards.elim

/-- A description whose component schemas come in another order says the same. -/
theorem respelled_withSchemas (hdistinct : Entries.Distinct document.components.schemas)
    (hperm : schemas.Perm document.components.schemas) :
    document.Respelled .straight (document.withSchemas schemas) := by
  constructor
  case schemas => exact schemas_respelled hdistinct hperm
  case sections =>
    constructor
    case parameters =>
      exact Entries.paired_self fun _ _ =>
        Json.readsAlike_self (parameterEntry_respelled_self .straight) _
    case requestBodies =>
      exact Entries.paired_self fun _ _ =>
        Json.readsAlike_self (requestBodyEntry_respelled_self .straight) _
    case responses =>
      exact Entries.paired_self fun _ _ =>
        Json.readsAlike_self (responseEntry_respelled_self .straight) _
    case headers =>
      exact Entries.paired_self fun _ _ =>
        Json.readsAlike_self (headerEntry_respelled_self .straight) _
    all_goals rfl
  case paths =>
    exact Entries.paired_self fun _ _ item hitem => ⟨item, hitem, pathItem_respelled_self _ item⟩
  all_goals rfl

theorem respelled_self (hdistinct : Entries.Distinct document.components.schemas) :
    document.Respelled .straight document :=
  respelled_withSchemas hdistinct (.refl _)

theorem yields_distinct_components :
    Components.ofJson?.Yields fun components => Entries.Distinct components.schemas := by
  have hrest : ∀ name, (RecordReader.fieldOr name (JsonReader.map JsonReader.any) []).Yields
      fun _ => True := fun _ => RecordReader.yields_fieldOr (JsonReader.yields_true _) trivial
  refine RecordReader.Yields.run ?_
  refine (RecordReader.yields_fieldOr JsonReader.yields_any.map ?_).bind fun schemas hschemas => ?_
  · exact ⟨List.nodup_nil, by simp⟩
  refine (hrest _).bind fun _ _ => (hrest _).bind fun _ _ => (hrest _).bind fun _ _ => ?_
  exact (hrest _).bind fun _ _ => (hrest _).bind fun _ _ => .pure hschemas.1

/-- The names of the component schemas are distinct, as the members of any object are. -/
theorem yields_distinct_schemas :
    Document.ofJson?.Yields fun document => Entries.Distinct document.components.schemas := by
  have htext : ∀ name, (RecordReader.field? name JsonReader.string).Yields
      fun text? => ∀ text ∈ text?, True :=
    fun _ => RecordReader.yields_field? (JsonReader.yields_true _)
  refine RecordReader.Yields.run ?_
  refine (htext _).bind fun _ _ => (htext _).bind fun _ _ => (htext _).bind fun _ _ => ?_
  refine (RecordReader.yields_fieldOr (JsonReader.yields_true _) trivial).bind fun _ _ => ?_
  refine (RecordReader.yields_fieldOr (JsonReader.yields_true _) trivial).bind fun _ _ => ?_
  refine (RecordReader.yields_fieldOr yields_distinct_components ?_).bind fun _ hcomponents => ?_
  · exact List.nodup_nil
  exact (RecordReader.yields_field? (JsonReader.yields_true _)).bind fun _ _ => .pure hcomponents

end Document

theorem Contract.ofJson_eq_ok_iff {json : Json} {contract : Contract} :
    ofJson json = .ok contract ↔ ∃ document table,
    Document.ofJson? json = some document ∧ document.checkVersion = .ok () ∧
      StateT.run document.compile {} = .ok (contract, table) := by
  unfold ofJson Scope.entryOf
  cases Document.ofJson? json with
  | none => simp [bind, Except.bind]
  | some document =>
      cases hversion : document.checkVersion with
      | error fault => simp [bind, Except.bind, hversion]
      | ok _ =>
          cases hrun : StateT.run document.compile {} with
          | error fault => simp [bind, Except.bind, hversion, hrun]
          | ok result =>
              obtain ⟨found, table⟩ := result
              simp [bind, Except.bind, hversion, hrun, pure, Except.pure]

/-! ## Descriptions of component schemas alone -/

theorem Components.ofJson?_schemas (schemas : Entries Json) :
    Components.ofJson? (.object [("schemas", .object schemas)]) = some { schemas } := by
  have hschemas : RecordReader.fieldOf? [("schemas", .object schemas)] "schemas"
      (JsonReader.map JsonReader.any) [] = some schemas := JsonReader.map_any_object schemas
  unfold Components.ofJson? RecordReader.run
  simp only [RecordReader.run_fieldOr_bind, hschemas]
  rfl

theorem Document.ofJson?_schemas (schemas : Entries Json) :
    Document.ofJson? (.object [("openapi", .string "3.1.0"),
      ("components", .object [("schemas", .object schemas)])]) =
        some ⟨some "3.1.0", none, none, [], [], { schemas }, none⟩ := by
  have hcomponents : RecordReader.fieldOf? [("openapi", .string "3.1.0"),
      ("components", .object [("schemas", .object schemas)])] "components" Components.ofJson? {} =
        some { schemas } := Components.ofJson?_schemas schemas
  unfold Document.ofJson? RecordReader.run
  simp only [RecordReader.run_fieldOr_bind, RecordReader.run_field?_bind, hcomponents]
  rfl

/-- Such a description compiles to the table that the schemas are read into. -/
theorem Contract.ofJson_schemas {schemas : Entries Json} {table : SchemaTable}
    (hread : StateT.run (Scope.readComponents ⟨none, { schemas }⟩) {} = .ok ((), table)) :
    ofJson (.object [("openapi", .string "3.1.0"),
      ("components", .object [("schemas", .object schemas)])]) = .ok { schemas := table } := by
  let document : Document := ⟨some "3.1.0", none, none, [], [], { schemas }, none⟩
  have hrun : StateT.run document.compile {} = .ok ({ schemas := table }, table) :=
    document.run_compile.trans ((bind_of_eq_ok hread).trans rfl)
  exact ofJson_eq_ok_iff.2 ⟨document, table, Document.ofJson?_schemas schemas, rfl, hrun⟩

/-! ## What a validator can tell apart -/

/-- Validators of the two contracts that differ in nothing else give the same outcomes, if there are
any: no registered style may look at the position of a schema. -/
def Contract.ValidatesLike (contract other : Contract) : Prop :=
  ∀ (options : ValidatorOptions) (formats : FormatRegistry) (media : MediaRegistry)
    (styles : StyleRegistry), styles.IgnoresPositions →
    Router.BothOrNeither (fun router router' => ∀ request response,
        Validator.validateRequest ⟨other, router', options, formats, media, styles⟩ request =
            Validator.validateRequest ⟨contract, router, options, formats, media, styles⟩ request ∧
          Validator.validateResponse ⟨other, router', options, formats, media, styles⟩ request
              response =
            Validator.validateResponse ⟨contract, router, options, formats, media, styles⟩ request
              response)
      (Router.ofContract contract) (Router.ofContract other)

/-- Both validators give the same outcome for each message. -/
def Validator.AgreesWith (validator other : Validator) : Prop :=
  ∀ request response, other.validateRequest request = validator.validateRequest request ∧
    other.validateResponse request response = validator.validateResponse request response

/-- So do the validators that contracts are made into, because no standard style looks at the position
of a schema. -/
theorem Contract.ValidatesLike.ofContract {contract other : Contract}
    (hlike : contract.ValidatesLike other) (options : ValidatorOptions) :
    Router.BothOrNeither Validator.AgreesWith (Validator.ofContract contract options)
      (Validator.ofContract other options) := by
  have hrouters := hlike options Format.standard .standard .standard
    StyleRegistry.ignoresPositions_standard
  unfold Validator.ofContract
  revert hrouters
  generalize Router.ofContract contract = router?
  generalize Router.ofContract other = router?'
  rintro (hagree | fault)
  · exact .both hagree
  · exact .neither fault

/-- Validators of the two contracts that differ in nothing else give the same outcome for each message
that may be read. -/
def Contract.ValidatesLikeOn (readable : Validator.Readable) (contract other : Contract) : Prop :=
  ∀ (options : ValidatorOptions) (formats : FormatRegistry) (media : MediaRegistry)
    (styles : StyleRegistry), styles.IgnoresPositions →
    Router.BothOrNeither (fun router router' => ∀ request,
        (Validator.ReadsRequest ⟨contract, router, options, formats, media, styles⟩ readable
            request →
          Validator.validateRequest ⟨other, router', options, formats, media, styles⟩ request =
            Validator.validateRequest ⟨contract, router, options, formats, media, styles⟩
              request) ∧
        ∀ response,
          Validator.ReadsResponse ⟨contract, router, options, formats, media, styles⟩ readable
            request response →
          Validator.validateResponse ⟨other, router', options, formats, media, styles⟩ request
              response =
            Validator.validateResponse ⟨contract, router, options, formats, media, styles⟩ request
              response)
      (Router.ofContract contract) (Router.ofContract other)

/-- The tables of two contracts are split, read and judged by alike, as far as bodies and defaults may be
read and values are good to judge. -/
structure Contract.TablesAgree (P : Pairing) (readable : Validator.Readable)
    (good : SchemaId → Value → Prop) (contract other : Contract) : Prop where
  shapes : ∀ (filled : Prop) (first second : SchemaId), P.Seats filled first second →
    Shape.of other.schemas (some second) = Shape.of contract.schemas (some first)
  casts : ∀ (filled : Prop) (first second : SchemaId) (body : Body), P.Seats filled first second →
    readable.body first body → body.isTextual →
      other.schemas.coerce second body.value = contract.schemas.coerce first body.value
  judges : ∀ (formats : FormatRegistry) (allowsExtras : Bool) (filled : Prop)
    (first second : SchemaId) (value : Value), P.Seats filled first second → good first value →
      SchemaRules.apply ⟨other.schemas, formats, allowsExtras⟩ second value =
        SchemaRules.apply ⟨contract.schemas, formats, allowsExtras⟩ first value
  good_of_readable : ∀ id body, readable.body id body → good id body.value
  good_coerce : ∀ id body, readable.body id body → good id (contract.schemas.coerce id body.value)
  good_default : ∀ id schema literal, contract.schemas.get? id = some schema →
    schema.default? = some literal → readable.default id literal → good id (.ofJson literal)
  bare : ∀ id literal, readable.default id literal → ¬ P.admits True id

theorem Contract.Alike.validatesLikeOn {P : Pairing} {readable : Validator.Readable}
    {good : SchemaId → Value → Prop} {contract other : Contract} (halike : contract.Alike P other)
    (hagree : contract.TablesAgree P readable good other) :
    contract.ValidatesLikeOn readable other := by
  intro options formats media styles hignores
  have hrouters := Router.bothOrNeither_ofContract halike
  revert hrouters
  generalize Router.ofContract contract = router?
  generalize Router.ofContract other = router?'
  rintro (@⟨router, router', hrouter⟩ | fault)
  · have hvalidators : Validator.Correspond P readable good
        ⟨contract, router, options, formats, media, styles⟩
        ⟨other, router', options, formats, media, styles⟩ :=
      { contract := halike
        router := hrouter
        options := rfl
        media := rfl
        styles := rfl
        ignores := hignores
        shapes := hagree.shapes
        casts := hagree.casts
        judges := hagree.judges formats _
        good_of_readable := hagree.good_of_readable
        good_coerce := hagree.good_coerce
        good_default := hagree.good_default
        bare := hagree.bare }
    exact .both fun request => ⟨Validator.validateRequest_congr hvalidators,
      fun response => Validator.validateResponse_congr hvalidators⟩
  · exact .neither fault

/-- A contract of a description that takes no way around corresponds to one of each description that
says the same, without ways around. -/
theorem Document.Respelled.exists_straight {document other : Document}
    (hrespelled : document.Respelled .straight other) {contract : Contract} {table : SchemaTable}
    (hrun : StateT.run document.compile {} = .ok (contract, table)) :
    ∃ contract' table' P, StateT.run other.compile {} = .ok (contract', table') ∧
      (Scope.pairing .straight document.scope other.scope).Below P ∧ contract.Alike P contract' ∧
      ∀ filled id, ¬ P.admits filled id := by
  obtain ⟨contract', table', P, hrun', hbelow, halike⟩ := hrespelled.exists_alike hrun
  refine ⟨contract', table', P, hrun', hbelow, halike, fun filled id hid => ?_⟩
  obtain ⟨_, hnever, -⟩ := (hbelow.admits filled id).2 hid
  exact hnever

section Straight

variable {P : Pairing} {table other : SchemaTable} {first second : SchemaId}
  (hadmits : ∀ filled id, ¬ P.admits filled id)

include hadmits

theorem Pairing.twin_of_seats {filled : Prop} (hseats : P.Seats filled first second) :
    P.twin first second :=
  hseats.resolve_right fun hdetour => hadmits _ _ hdetour.2

/-- Twins judge every value alike. -/
theorem SchemaRules.apply_congr (hsettles : P.Settles table other) (formats : FormatRegistry)
    (allowsExtras : Bool) (htwin : P.twin first second) (value : Value) :
    SchemaRules.apply ⟨other, formats, allowsExtras⟩ second value =
      SchemaRules.apply ⟨table, formats, allowsExtras⟩ first value := by
  have hrules : SchemaRules.Correspond P ⟨table, formats, allowsExtras⟩
      ⟨other, formats, allowsExtras⟩ :=
    ⟨hsettles, rfl, rfl⟩
  have hall : SchemaRules.Inherits P ⟨table, formats, allowsExtras⟩ fun _ _ => True := by
    constructor
    case bare => exact fun _ _ _ missing _ _ _ => hadmits True missing.2.1
    all_goals intros; trivial
  have hseats : P.Seats False first second := .inl htwin
  exact apply_seats hrules hall
    (fun filled first _ _ _ _ _ hfirst => absurd hfirst (hadmits filled first)) hseats trivial

theorem Contract.Alike.validatesLike {contract contract' : Contract}
    (halike : contract.Alike P contract') : contract.ValidatesLike contract' := by
  have hagree : contract.TablesAgree P .all (fun _ _ => True) contract' := by
    constructor
    case bare => exact fun id _ _ => hadmits True id
    case shapes =>
      exact fun filled first second hseats =>
        Shape.of_seats halike.schemas (fun filled id hid => absurd hid (hadmits filled id)) hseats
    case casts =>
      intro filled first second body hseats _ _
      have hall : SchemaTable.PassesDown fun _ _ => True := fun _ _ _ _ _ => trivial
      exact SchemaTable.coerceAt_seats halike.schemas hall
        (fun _ filled id _ _ hid => absurd hid (hadmits filled id)) _ _ trivial _ _ _ hseats
    case judges =>
      exact fun formats allowsExtras filled first second value hseats _ =>
        SchemaRules.apply_congr hadmits halike.schemas formats allowsExtras
          (Pairing.twin_of_seats hadmits hseats) value
    all_goals intros; trivial
  intro options formats media styles hignores
  have houtcomes := halike.validatesLikeOn hagree options formats media styles hignores
  revert houtcomes
  generalize Router.ofContract contract = router?
  generalize Router.ofContract contract' = router?'
  rintro (@⟨router, router', hsame⟩ | fault)
  · exact .both fun request response => ⟨(hsame request).1 (Validator.readsRequest_all _ request),
      (hsame request).2 response (Validator.readsResponse_all _ request response)⟩
  · exact .neither fault

end Straight

end ApiContract
