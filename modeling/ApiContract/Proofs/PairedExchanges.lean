import ApiContract.Exchange.Validator
import ApiContract.Proofs.PairedRouting
import ApiContract.Proofs.SchemeGroups

/-!
# Validating with contracts that are alike

Validators of two contracts that are alike find operations that are alike, split the same texts by
the same shapes, read them alike and judge what they read alike.  So both give the same outcome for
every message, whatever formats and media types they know, as long as no registered style looks at
the position of a schema.
-/

namespace ApiContract

/-! ## Outcomes -/

namespace Judgement

variable {α β : Type} {related : α → β → Prop}

/-- The same outcome, with related values. -/
inductive Alike (related : α → β → Prop) : Judgement α → Judgement β → Prop
  | accepted {value : α} {other : β} (hrelated : related value other) :
      Alike related (.accepted value) (.accepted other)
  | rejected (violations : List Violation) : Alike related (.rejected violations) (.rejected violations)
  | unending : Alike related .unending .unending

theorem Alike.map_eq {γ : Type} {judgement : Judgement α} {other : Judgement β} {f : α → γ}
    {g : β → γ} (halike : Alike related judgement other)
    (hsame : ∀ value value', related value value' → g value' = f value) :
    other.map g = judgement.map f := by
  cases halike with
  | accepted hrelated => exact congrArg Judgement.accepted (hsame _ _ hrelated)
  | rejected violations => rfl
  | unending => rfl

theorem Alike.both {γ : Type} {judgement : Judgement α} {other : Judgement β}
    (halike : Alike related judgement other) (next : Judgement γ) :
    Alike (fun values values' => related values.1 values'.1 ∧ values'.2 = values.2)
      (judgement.both next) (other.both next) := by
  cases halike with
  | accepted hrelated =>
      cases next with
      | accepted value => exact .accepted ⟨hrelated, rfl⟩
      | rejected violations => exact .rejected violations
      | unending => exact .unending
  | rejected violations =>
      cases next with
      | accepted value => exact .rejected violations
      | rejected more => exact .rejected _
      | unending => exact .unending
  | unending => cases next <;> exact .unending

theorem rel_gather {judgements : List (Judgement α)} {others : List (Judgement β)}
    (hall : List.Forall₂ (Alike related) judgements others) :
    Option.Rel (fun gathered gathered' => List.Forall₂ related gathered.1 gathered'.1 ∧
      gathered'.2 = gathered.2) (gather judgements) (gather others) := by
  induction hall with
  | nil => exact .some ⟨.nil, rfl⟩
  | cons hfirst _ ih =>
      cases hfirst with
      | unending => exact .none
      | accepted hrelated =>
          unfold gather
          revert ih
          generalize gather _ = gathered
          generalize gather _ = gathered'
          rintro (⟨hvalues, hviolations⟩ | _)
          · exact .some ⟨.cons hrelated hvalues, hviolations⟩
          · exact .none
      | rejected violations =>
          unfold gather
          revert ih
          generalize gather _ = gathered
          generalize gather _ = gathered'
          rintro (⟨hvalues, hviolations⟩ | _)
          · exact .some ⟨hvalues, congrArg (violations ++ ·) hviolations⟩
          · exact .none

theorem alike_all {judgements : List (Judgement α)} {others : List (Judgement β)}
    (hall : List.Forall₂ (Alike related) judgements others) :
    Alike (List.Forall₂ related) (all judgements) (all others) := by
  have hgathered := rel_gather hall
  unfold all
  revert hgathered
  generalize gather judgements = gathered
  generalize gather others = gathered'
  rintro (@⟨⟨values, _⟩, ⟨values', violations'⟩, ⟨hvalues, rfl⟩⟩ | _)
  · cases violations' with
    | nil => exact .accepted hvalues
    | cons first rest => exact .rejected _
  · exact .unending

end Judgement

/-! ## Parameters -/

theorem Parameter.Alike.eq_with {P : Pairing} {parameter other : Parameter}
    (halike : parameter.Alike P other) :
    other = { parameter with schema? := other.schema? } := by
  obtain ⟨hname, hplace, hrequired, hstyle, hexplode, hcontentType, -⟩ := halike
  cases parameter
  cases other
  simp_all

/-- The reader looks at no position of a schema. -/
def StyleReader.IgnoresPosition (reader : StyleReader) : Prop :=
  ∀ (parameter : Parameter) (schema? : Option SchemaId) (shape : Shape) (raw : RawText),
    reader { parameter with schema? } shape raw = reader parameter shape raw

namespace StyleRegistry

variable {P : Pairing} {styles : StyleRegistry} {table other : SchemaTable}
  {parameter parameter' : Parameter} {sources : ParameterSources}

def IgnoresPositions (styles : StyleRegistry) : Prop :=
  ∀ name reader, styles.get? name = some reader → reader.IgnoresPosition

theorem ignoresPositions_standard : standard.IgnoresPositions := by
  intro name reader hget
  have hmem := Entries.mem_of_get? hget
  simp only [standard, List.mem_cons, Prod.mk.injEq, List.not_mem_nil, or_false] at hmem
  rcases hmem with ⟨-, rfl⟩ | ⟨-, rfl⟩ | ⟨-, rfl⟩ | ⟨-, rfl⟩ | ⟨-, rfl⟩ | ⟨-, rfl⟩ | ⟨-, rfl⟩ <;>
    exact fun _ _ _ _ => rfl

/-- Parameters that are alike are split alike if their schemas have the same shape. -/
theorem extract_congr (hignores : styles.IgnoresPositions) (halike : parameter.Alike P parameter')
    (hshape : Shape.of other parameter'.schema? = Shape.of table parameter.schema?) :
    styles.extract other parameter' sources = styles.extract table parameter sources := by
  have hreads : styles.read? other parameter' sources = styles.read? table parameter sources := by
    unfold read?
    rw [hshape, halike.contentType, halike.style]
    have hraw : sources.rawText? parameter' = sources.rawText? parameter := by
      unfold ParameterSources.rawText?
      rw [halike.place, halike.name]
    rw [hraw, halike.name]
    cases sources.rawText? parameter with
    | none => rfl
    | some raw =>
        cases hreader : styles.get? parameter.style.name with
        | none => rfl
        | some reader =>
            have hsame := hignores _ reader hreader parameter parameter'.schema?
              (Shape.of table parameter.schema?) raw
            rw [← halike.eq_with] at hsame
            simp only [hsame]
  unfold extract
  rw [hreads, halike.required]

theorem required_of_extract_eq_none
    (hextract : styles.extract table parameter sources = .ok none) : parameter.required = false := by
  unfold extract at hextract
  split at hextract
  · by_contra hrequired
    rw [if_pos (by simpa using hrequired)] at hextract
    cases hextract
  · next hresult => exact absurd hextract hresult

end StyleRegistry

/-! ## Messages -/

theorem rel_selectMediaType? {α β : Type} {related : String → α → β → Prop} {content : Entries α}
    {other : Entries β} (hpaired : Entries.Paired related content other)
    (contentType? : Option String) :
    Option.Rel (fun entry entry' => entry'.1 = entry.1 ∧ related entry.1 entry.2 entry'.2)
      (selectMediaType? content contentType?) (selectMediaType? other contentType?) := by
  have hfind : ∀ matching : String → Bool,
      Option.Rel (fun entry entry' => entry'.1 = entry.1 ∧ related entry.1 entry.2 entry'.2)
        (content.find? fun entry => matching entry.1) (other.find? fun entry => matching entry.1) := by
    intro matching
    induction hpaired with
    | nil => exact .none
    | cons hfirst _ ih =>
        rw [List.find?_cons, List.find?_cons, hfirst.1]
        split
        · exact .some hfirst
        · exact ih
  cases contentType? with
  | none =>
      cases hpaired with
      | nil => exact .none
      | cons hfirst hrest =>
          cases hrest with
          | nil => exact .some hfirst
          | cons _ _ => exact .none
  | some text =>
      unfold selectMediaType?
      dsimp only
      have hdeclared := fun essence : String => hfind fun name =>
        (MediaType.ofString? name).any fun mediaType => mediaType.essence == essence
      cases MediaType.ofString? text with
      | none => exact .none
      | some wanted =>
          exact rel_or (hdeclared wanted.essence) (rel_or (hdeclared wanted.wildcard)
            (hdeclared "*/*"))

namespace Validator

/-- What may be read from a message under each schema, and which defaults may take the place of absent
parameters. -/
structure Readable where
  body : SchemaId → Body → Prop
  default : SchemaId → Json → Prop

/-- Two validators differ in nothing but their contracts, which are alike.  What may be read is read
alike wherever a schema is named, and what then is to be judged is judged alike. -/
structure Correspond (P : Pairing) (readable : Readable) (good : SchemaId → Value → Prop)
    (validator other : Validator) : Prop where
  contract : validator.contract.Alike P other.contract
  router : validator.router.Alike P other.router
  options : other.options = validator.options
  media : other.media = validator.media
  styles : other.styles = validator.styles
  ignores : validator.styles.IgnoresPositions
  shapes : ∀ (filled : Prop) (first second : SchemaId), P.Seats filled first second →
    Shape.of other.contract.schemas (some second) = Shape.of validator.contract.schemas (some first)
  casts : ∀ (filled : Prop) (first second : SchemaId) (body : Body), P.Seats filled first second →
    readable.body first body → body.isTextual → other.contract.schemas.coerce second body.value =
      validator.contract.schemas.coerce first body.value
  judges : ∀ (filled : Prop) (first second : SchemaId) (value : Value),
    P.Seats filled first second → good first value →
      other.schemaRules.apply second value = validator.schemaRules.apply first value
  good_of_readable : ∀ id body, readable.body id body → good id body.value
  good_coerce : ∀ id body, readable.body id body →
    good id (validator.contract.schemas.coerce id body.value)
  good_default : ∀ id schema literal, validator.contract.schemas.get? id = some schema →
    schema.default? = some literal → readable.default id literal → good id (.ofJson literal)
  bare : ∀ id literal, readable.default id literal → ¬ P.admits True id

/-- What is read for a parameter, or from the document in its text, may be read, or the default that
takes its place may. -/
structure ReadsParameter (validator : Validator) (readable : Readable) (parameter : Parameter)
    (sources : ParameterSources) : Prop where
  absent :
    validator.styles.extract validator.contract.schemas parameter sources = .ok none →
      ∀ id schema literal, parameter.schema? = some id →
        validator.contract.schemas.get? id = some schema → schema.default? = some literal →
        readable.default id literal
  text : parameter.contentType? = none → ∀ id value, parameter.schema? = some id →
    validator.styles.extract validator.contract.schemas parameter sources = .ok (some value) →
      readable.body id ⟨value, true⟩
  document : ∀ contentType, parameter.contentType? = some contentType → ∀ id value body,
    parameter.schema? = some id →
    validator.styles.extract validator.contract.schemas parameter sources = .ok (some value) →
      validator.media.read contentType
        (Utf8.encodeString (value.asString?.getD value.toJson.toText)) = .ok body →
      readable.body id body

/-- What is read from a body with declared content may be read. -/
def ReadsContent (validator : Validator) (readable : Readable) (content : Content)
    (contentType? : Option String) (bytes : List UInt8) : Prop :=
  ∀ declared id body, selectMediaType? content contentType? = some (declared, some id) →
    validator.media.read (contentType?.getD declared) bytes = .ok body → readable.body id body

/-- All that the operation of a request reads from it may be read. -/
def ReadsRequest (validator : Validator) (readable : Readable) (request : Request) : Prop :=
  ∀ found, validator.router.find request.method request.path = .ok found →
    (∀ parameter ∈ found.operation.parameters,
      validator.ReadsParameter readable parameter (.ofRequest request found.captures)) ∧
    ∀ declared ∈ found.operation.body?,
      validator.ReadsContent readable declared.content request.effectiveContentType? request.body

/-- All that the operation of a request reads from a response may be read. -/
def ReadsResponse (validator : Validator) (readable : Readable) (request : Request)
    (response : Response) : Prop :=
  ∀ found, validator.router.find request.method request.path = .ok found →
    ∀ declared ∈ findResponse? found.operation response.status,
      (∀ header ∈ declared.headers,
        validator.ReadsParameter readable header (.ofResponse response)) ∧
      validator.ReadsContent readable declared.content response.effectiveContentType? response.body

/-- Everything may be read. -/
def Readable.all : Readable := ⟨fun _ _ => True, fun _ _ => True⟩

theorem readsParameter_all (validator : Validator) (parameter : Parameter)
    (sources : ParameterSources) : validator.ReadsParameter .all parameter sources :=
  ⟨fun _ _ _ _ _ _ _ => trivial, fun _ _ _ _ _ => trivial, fun _ _ _ _ _ _ _ _ => trivial⟩

theorem readsContent_all (validator : Validator) (content : Content) (contentType? : Option String)
    (bytes : List UInt8) : validator.ReadsContent .all content contentType? bytes :=
  fun _ _ _ _ _ => trivial

theorem readsRequest_all (validator : Validator) (request : Request) :
    validator.ReadsRequest .all request :=
  fun _ _ => ⟨fun _ _ => readsParameter_all _ _ _, fun _ _ => readsContent_all _ _ _ _⟩

theorem readsResponse_all (validator : Validator) (request : Request) (response : Response) :
    validator.ReadsResponse .all request response :=
  fun _ _ _ _ => ⟨fun _ _ => readsParameter_all _ _ _, readsContent_all _ _ _ _⟩

section Correspond

variable {P : Pairing} {readable : Readable} {good : SchemaId → Value → Prop}
  {validator other : Validator} {parameter parameter' : Parameter} {sources : ParameterSources}
  {bytes : List UInt8} (hvalidators : validator.Correspond P readable good other)

include hvalidators

theorem cast_congr {filled : Prop} {schema? schema?' : Option SchemaId} {body : Body}
    (hschema : Option.Rel (P.Seats filled) schema? schema?')
    (hbody : ∀ id ∈ schema?, readable.body id body) :
    other.cast schema?' body = validator.cast schema? body := by
  unfold cast
  rw [hvalidators.options]
  cases hschema with
  | none => rfl
  | some hseats =>
      dsimp only
      split
      · next hcasts =>
          rw [Bool.and_eq_true] at hcasts
          exact hvalidators.casts _ _ _ _ hseats (hbody _ rfl) hcasts.1
      · rfl

theorem good_cast {id : SchemaId} {body : Body} (hbody : readable.body id body) :
    good id (validator.cast (some id) body) := by
  unfold cast
  dsimp only
  split
  · exact hvalidators.good_coerce id body hbody
  · exact hvalidators.good_of_readable id body hbody

theorem judgeValue_congr {filled : Prop} {schema? schema?' : Option SchemaId} {value : Value}
    (hschema : Option.Rel (P.Seats filled) schema? schema?')
    (hvalue : ∀ id ∈ schema?, good id value) :
    other.judgeValue schema?' value = validator.judgeValue schema? value := by
  unfold judgeValue
  cases hschema with
  | none => rfl
  | some hseats => exact hvalidators.judges _ _ _ _ hseats (hvalue _ rfl)

theorem extract_congr (halike : parameter.Alike P parameter') :
    other.styles.extract other.contract.schemas parameter' sources =
      validator.styles.extract validator.contract.schemas parameter sources := by
  rw [hvalidators.styles]
  refine StyleRegistry.extract_congr hvalidators.ignores halike ?_
  have hschema := halike.schema
  revert hschema
  generalize parameter.schema? = schema?
  generalize parameter'.schema? = schema?'
  rintro (hseats | _)
  · exact hvalidators.shapes _ _ _ hseats
  · rfl

/-- An absent optional parameter has the same default, if no detour may be taken around it. -/
theorem default_congr (halike : parameter.Alike P parameter')
    (hrequired : parameter.required = false)
    (hbare : ∀ id schema literal, parameter.schema? = some id →
      validator.contract.schemas.get? id = some schema → schema.default? = some literal →
      ¬ P.admits True id) :
    ((parameter'.schema?.bind other.contract.schemas.get?).bind fun schema =>
        schema.default?.map Value.ofJson) =
      (parameter.schema?.bind validator.contract.schemas.get?).bind fun schema =>
        schema.default?.map Value.ofJson := by
  have hschema := halike.schema
  revert hschema hbare
  generalize parameter.schema? = schema?
  generalize parameter'.schema? = schema?'
  rintro hbare (@⟨first, second, htwin | ⟨hdetour, hadmits⟩⟩ | _)
  · obtain ⟨schema, schema', hget, hget', hschema⟩ := hvalidators.contract.schemas.alike _ _ htwin
    rw [Option.bind_some, Option.bind_some, hget, hget', Option.bind_some, Option.bind_some,
      hschema.default]
  · obtain ⟨target, htwin, hget'⟩ := hvalidators.contract.schemas.leads _ _ hdetour
    obtain ⟨schema, _, hget, -⟩ := hvalidators.contract.schemas.alike _ _ htwin
    rw [Option.bind_some, Option.bind_some, hget, hget', Option.bind_some, Option.bind_some]
    cases hdefault : schema.default? with
    | none => rfl
    | some literal =>
        exact absurd (eq_true hrequired ▸ hadmits) (hbare first schema literal rfl hget hdefault)
  · rfl

theorem parameterValue?_congr (halike : parameter.Alike P parameter')
    (hreads : validator.ReadsParameter readable parameter sources) :
    other.parameterValue? parameter' sources = validator.parameterValue? parameter sources ∧
      ∀ value, validator.parameterValue? parameter sources = .ok (some value) →
        ∀ id ∈ parameter.schema?, good id value := by
  unfold parameterValue?
  rw [extract_congr hvalidators halike]
  cases hextract : validator.styles.extract validator.contract.schemas parameter sources with
  | error fault =>
      refine ⟨?_, fun _ hvalue => by cases hvalue⟩
      unfold Parameter.violation
      rw [halike.place, halike.name]
  | ok value? =>
      cases value? with
      | none =>
          have hbare := fun id schema literal hid hget hdefault =>
            hvalidators.bare id literal (hreads.absent hextract id schema literal hid hget hdefault)
          refine ⟨congrArg Except.ok (default_congr hvalidators halike
            (StyleRegistry.required_of_extract_eq_none hextract) hbare), fun value hvalue id hid => ?_⟩
          obtain ⟨schema, hschema, hdefault⟩ := Option.bind_eq_some_iff.1 (Except.ok.inj hvalue)
          obtain ⟨found, hfound, hget⟩ := Option.bind_eq_some_iff.1 hschema
          obtain rfl : found = id := Option.some.inj (hfound.symm.trans hid)
          obtain ⟨literal, hliteral, rfl⟩ := Option.map_eq_some_iff.1 hdefault
          exact hvalidators.good_default found schema literal hget hliteral
            (hreads.absent hextract found schema literal hid hget hliteral)
      | some value =>
          have hmedia := hvalidators.media
          rw [halike.contentType, hmedia]
          cases hcontentType : parameter.contentType? with
          | none =>
              have hvalue := fun id hid => hreads.text hcontentType id value hid hextract
              refine ⟨congrArg (fun value => Except.ok (some value))
                (cast_congr hvalidators halike.schema hvalue), ?_⟩
              rintro _ ⟨⟩ id hid
              rw [Option.mem_def.1 hid]
              exact good_cast hvalidators (hvalue id hid)
          | some contentType =>
              dsimp only
              cases hread : validator.media.read contentType
                (Utf8.encodeString (value.asString?.getD value.toJson.toText)) with
              | error fault => exact ⟨rfl, fun _ hvalue => by cases hvalue⟩
              | ok body =>
                  have hbody := fun id hid =>
                    hreads.document contentType hcontentType id value body hid hextract hread
                  refine ⟨congrArg (fun value => Except.ok (some value))
                    (cast_congr hvalidators halike.schema hbody), ?_⟩
                  rintro _ ⟨⟩ id hid
                  rw [Option.mem_def.1 hid]
                  exact good_cast hvalidators (hbody id hid)

theorem judgeParameter_congr (halike : parameter.Alike P parameter')
    (hreads : validator.ReadsParameter readable parameter sources) (part : Part) :
    other.judgeParameter parameter' sources part = validator.judgeParameter parameter sources part := by
  obtain ⟨hvalue, hgood⟩ := parameterValue?_congr hvalidators halike hreads
  unfold judgeParameter
  rw [hvalue]
  cases hfound : validator.parameterValue? parameter sources with
  | error violation => rfl
  | ok value? =>
      cases value? with
      | none => rfl
      | some value =>
          dsimp only
          rw [judgeValue_congr hvalidators halike.schema (hgood value hfound)]

/-- Values of the same parameters, up to the positions of their schemas. -/
def ValuesAlike (P : Pairing) : List (Parameter × Option Value) → List (Parameter × Option Value) →
    Prop :=
  List.Forall₂ fun value value' => value.1.Alike P value'.1 ∧ value'.2 = value.2

omit hvalidators in
theorem collect_congr {values values' : List (Parameter × Option Value)}
    (hvalues : ValuesAlike P values values') : collect values' = collect values := by
  refine foldl_eq_foldl_of_forall₂ hvalues ?_
  rintro collected ⟨parameter, _⟩ ⟨parameter', value?⟩ ⟨halike, rfl⟩
  cases value? with
  | none => rfl
  | some value => exact congrArg₂ (collected.insert · · value) halike.place halike.name

theorem judgeParameters_alike {parameters parameters' : List Parameter} (part : Parameter → Part)
    (halike : List.Forall₂ (Parameter.Alike P) parameters parameters')
    (hreads : ∀ parameter ∈ parameters, validator.ReadsParameter readable parameter sources)
    (hpart : ∀ parameter parameter', parameter.Alike P parameter' →
      part parameter' = part parameter) :
    Judgement.Alike (ValuesAlike P) (validator.judgeParameters parameters sources part)
      (other.judgeParameters parameters' sources part) := by
  unfold judgeParameters
  refine Judgement.alike_all ?_
  rw [List.forall₂_map_left_iff, List.forall₂_map_right_iff]
  refine List.Forall₂.imp ?_ ((List.forall₂_and_left _ _).2 ⟨hreads, halike⟩)
  rintro parameter parameter' ⟨hreads, halike⟩
  rw [hpart _ _ halike, judgeParameter_congr hvalidators halike hreads]
  cases validator.judgeParameter parameter sources (part parameter) with
  | accepted value? => exact .accepted ⟨halike, rfl⟩
  | rejected violations => exact .rejected violations
  | unending => exact .unending

theorem judgeContent_congr {content content' : Content} (halike : Content.Alike P content content')
    (contentType? : Option String)
    (hreads : validator.ReadsContent readable content contentType? bytes) :
    other.judgeContent content' contentType? bytes =
      validator.judgeContent content contentType? bytes := by
  have hselected := rel_selectMediaType? halike contentType?
  unfold judgeContent
  unfold ReadsContent at hreads
  rw [hvalidators.media]
  revert hselected hreads
  generalize selectMediaType? content contentType? = selected
  generalize selectMediaType? content' contentType? = selected'
  rintro hreads (@⟨⟨_, schema?⟩, ⟨declared, schema?'⟩, ⟨rfl, hschema⟩⟩ | _)
  · dsimp only
    cases hread : validator.media.read (contentType?.getD declared) bytes with
    | error fault => rfl
    | ok body =>
        have hbody : ∀ id ∈ schema?, readable.body id body := by
          rintro id rfl
          exact hreads declared id body rfl hread
        have hvalue : ∀ id ∈ schema?, good id (validator.cast schema? body) := by
          rintro id rfl
          exact good_cast hvalidators (hbody id rfl)
        dsimp only
        rw [cast_congr hvalidators hschema hbody, judgeValue_congr hvalidators hschema hvalue]
  · rfl

theorem judgeRequestBody_congr {operation operation' : Operation}
    (halike : operation.Alike P operation') {request : Request}
    (hreads : ∀ declared ∈ operation.body?,
      validator.ReadsContent readable declared.content request.effectiveContentType? request.body) :
    other.judgeRequestBody operation' request = validator.judgeRequestBody operation request := by
  have hbody := halike.body
  unfold judgeRequestBody
  revert hbody hreads
  generalize operation.body? = body?
  generalize operation'.body? = body?'
  rintro hreads (hbody | _)
  · dsimp only
    rw [hbody.required, judgeContent_congr hvalidators hbody.content _ (hreads _ rfl)]
  · rfl

theorem judgeSecurity_congr {operation operation' : Operation}
    (halike : operation.Alike P operation') :
    other.judgeSecurity operation' sources = validator.judgeSecurity operation sources := by
  have hcredential : ∀ name place, other.securityRules.credential? sources name place =
      validator.securityRules.credential? sources name place := by
    intro name place
    have hextract : other.styles.extract other.contract.schemas (.new name place none) sources =
        validator.styles.extract validator.contract.schemas (.new name place none) sources :=
      extract_congr hvalidators ⟨rfl, rfl, rfl, rfl, rfl, rfl, .none⟩
    unfold SecurityRules.credential? securityRules
    dsimp only
    rw [hextract]
  have hcheck : ∀ name, other.securityRules.check sources name =
      validator.securityRules.check sources name := by
    intro name
    have hschemes : other.securityRules.schemes = validator.securityRules.schemes :=
      hvalidators.contract.securitySchemes
    unfold SecurityRules.check SecurityRules.checkHttp
    simp only [hschemes, hcredential]
  unfold judgeSecurity
  rw [hvalidators.options, halike.security, SecurityRules.validate_congr fun scheme _ => hcheck scheme]

/-- Both validators give the same outcome for a request. -/
theorem validateRequest_congr {request : Request}
    (hreads : validator.ReadsRequest readable request) :
    other.validateRequest request = validator.validateRequest request := by
  unfold validateRequest
  rcases Router.find_cases hvalidators.router request.method request.path with
    ⟨found, found', hfound, hfound', halike⟩ | ⟨fault, hfault, hfault'⟩
  · rw [hfound, hfound']
    dsimp only
    obtain ⟨hreadsParameters, hreadsBody⟩ := hreads found hfound
    have hparameters := judgeParameters_alike hvalidators
      (fun parameter => .parameter parameter.place parameter.name) halike.operation.parameters
      hreadsParameters fun _ _ halike => by rw [halike.place, halike.name]
    rw [halike.captures, judgeRequestBody_congr hvalidators halike.operation hreadsBody,
      judgeSecurity_congr hvalidators halike.operation]
    refine (hparameters.both _).map_eq ?_
    rintro ⟨values, body?, security⟩ ⟨values', _⟩ ⟨hvalues, rfl⟩
    simp only [collect_congr hvalues]
  · rw [hfault, hfault']

omit hvalidators in
theorem rel_findResponse? {operation operation' : Operation} (halike : operation.Alike P operation')
    (status : Nat) : Option.Rel (DeclaredResponse.Alike P) (findResponse? operation status)
      (findResponse? operation' status) := by
  unfold findResponse?
  exact rel_or (halike.responses.get? _) (rel_or (halike.responses.get? _) (halike.responses.get? _))

/-- Both validators give the same outcome for a response. -/
theorem validateResponse_congr {request : Request} {response : Response}
    (hreads : validator.ReadsResponse readable request response) :
    other.validateResponse request response = validator.validateResponse request response := by
  unfold validateResponse
  rcases Router.find_cases hvalidators.router request.method request.path with
    ⟨found, found', hfound, hfound', halike⟩ | ⟨fault, hfault, hfault'⟩
  · rw [hfound, hfound']
    dsimp only
    have hdeclared := rel_findResponse? halike.operation response.status
    have hread := hreads found hfound
    revert hdeclared hread
    generalize findResponse? found.operation response.status = declared?
    generalize findResponse? found'.operation response.status = declared?'
    rintro (@⟨declared, declared', hdeclared⟩ | _) hread
    · dsimp only
      obtain ⟨hreadsHeaders, hreadsBody⟩ := hread declared rfl
      have hheaders := judgeParameters_alike hvalidators (fun header => .responseHeader header.name)
        hdeclared.headers hreadsHeaders fun _ _ halike => by rw [halike.name]
      rw [judgeContent_congr hvalidators hdeclared.content _ hreadsBody,
        isEmpty_eq_of_forall₂ hdeclared.content]
      refine (hheaders.both _).map_eq ?_
      rintro ⟨values, body?⟩ ⟨values', _⟩ ⟨hvalues, rfl⟩
      simp only [collect_congr hvalues]
    · rfl
  · rw [hfault, hfault']

end Correspond

end Validator

end ApiContract
