import ApiContract.Proofs.Compiled
import ApiContract.Proofs.Components

/-!
# Reading respelled operations

What is said about schemas holds of all that names schemas: parameters, headers, bodies, responses
and operations that are respelled are read in lockstep, and what is read is alike.
-/

namespace ApiContract

/-! ## Parts of a contract -/

/-- Two parameters differ at most in the position of their schema. -/
structure Parameter.Alike (P : Pairing) (parameter other : Parameter) : Prop where
  name : other.name = parameter.name
  place : other.place = parameter.place
  required : other.required = parameter.required
  style : other.style = parameter.style
  explode : other.explode = parameter.explode
  contentType : other.contentType? = parameter.contentType?
  schema : Option.Rel (P.Seats (parameter.required = false)) parameter.schema? other.schema?

/-- The same content types have schemas that stand for each other. -/
def Content.Alike (P : Pairing) (content other : Content) : Prop :=
  Entries.Paired (fun _ => Option.Rel (P.Seats False)) content other

structure RequestBody.Alike (P : Pairing) (body other : RequestBody) : Prop where
  required : other.required = body.required
  content : Content.Alike P body.content other.content

structure DeclaredResponse.Alike (P : Pairing) (response other : DeclaredResponse) : Prop where
  content : Content.Alike P response.content other.content
  headers : List.Forall₂ (Parameter.Alike P) response.headers other.headers

/-- Two operations differ at most in the positions of their schemas. -/
structure Operation.Alike (P : Pairing) (operation other : Operation) : Prop where
  method : other.method = operation.method
  path : other.path = operation.path
  operationId : other.operationId? = operation.operationId?
  parameters : List.Forall₂ (Parameter.Alike P) operation.parameters other.parameters
  body : Option.Rel (RequestBody.Alike P) operation.body? other.body?
  responses : Entries.Paired (fun _ => DeclaredResponse.Alike P) operation.responses
    other.responses
  security : other.security = operation.security

section Monotone

variable {P Q : Pairing}

theorem Parameter.Alike.mono {parameter other : Parameter} (halike : parameter.Alike P other)
    (hbelow : P.Below Q) : parameter.Alike Q other :=
  { halike with schema := rel_imp halike.schema fun _ _ => hbelow.seats }

theorem Content.Alike.mono {content other : Content} (halike : Content.Alike P content other)
    (hbelow : P.Below Q) : Content.Alike Q content other :=
  halike.imp fun _ _ _ hschema => rel_imp hschema fun _ _ => hbelow.seats

theorem RequestBody.Alike.mono {body other : RequestBody} (halike : body.Alike P other)
    (hbelow : P.Below Q) : body.Alike Q other :=
  ⟨halike.required, halike.content.mono hbelow⟩

theorem DeclaredResponse.Alike.mono {response other : DeclaredResponse}
    (halike : response.Alike P other) (hbelow : P.Below Q) : response.Alike Q other :=
  ⟨halike.content.mono hbelow, halike.headers.imp fun _ _ hheader => hheader.mono hbelow⟩

theorem Operation.Alike.mono {operation other : Operation} (halike : operation.Alike P other)
    (hbelow : P.Below Q) : operation.Alike Q other :=
  { halike with
    parameters := halike.parameters.imp fun _ _ hparameter => hparameter.mono hbelow
    body := rel_imp halike.body fun _ _ hbody => hbody.mono hbelow
    responses := halike.responses.imp fun _ _ _ hresponse => hresponse.mono hbelow }

end Monotone

/-! ## Parts of a description -/

/-- Two descriptions of a part hold the same reference, and what can be read of the first can be read
of the second, in a related way. -/
def Json.ReadsAlike {α : Type} (read : JsonReader α) (related : α → α → Prop)
    (json other : Json) : Prop :=
  Reference.of? other = Reference.of? json ∧
    ∀ entry ∈ read json, ∃ entry' ∈ read other, related entry entry'

/-- The schema and the media type of a parameter are written in two ways. -/
structure SchemaOrContent (ρ : Rerouting) (filled : Prop) (schema? : Option Json)
    (content? : Option (Entries (Option Json))) (schema?' : Option Json)
    (content?' : Option (Entries (Option Json))) : Prop where
  schema : Option.Rel (Json.Respelled ρ (some filled)) schema? schema?'
  content : Option.Rel (Entries.Paired fun _ => Option.Rel (Json.Respelled ρ (some filled)))
    content? content?'

structure ParameterEntry.Respelled (ρ : Rerouting) (entry other : ParameterEntry) : Prop where
  name : other.name = entry.name
  place : other.place = entry.place
  required : other.required = entry.required
  style : other.style? = entry.style?
  explode : other.explode? = entry.explode?
  schema : SchemaOrContent ρ (entry.required = false) entry.schema? entry.content? other.schema?
    other.content?

structure HeaderEntry.Respelled (ρ : Rerouting) (entry other : HeaderEntry) : Prop where
  required : other.required = entry.required
  style : other.style? = entry.style?
  explode : other.explode? = entry.explode?
  schema : SchemaOrContent ρ (entry.required = false) entry.schema? entry.content? other.schema?
    other.content?

structure RequestBodyEntry.Respelled (ρ : Rerouting) (entry other : RequestBodyEntry) : Prop where
  required : other.required = entry.required
  content : Entries.Paired (fun _ => Option.Rel (Json.Respelled ρ (some False))) entry.content
    other.content

structure ResponseEntry.Respelled (ρ : Rerouting) (entry other : ResponseEntry) : Prop where
  content : Entries.Paired (fun _ => Option.Rel (Json.Respelled ρ (some False))) entry.content
    other.content
  headers : Entries.Paired (fun _ => Json.ReadsAlike HeaderEntry.ofJson? (HeaderEntry.Respelled ρ))
    entry.headers other.headers

structure OperationEntry.Respelled (ρ : Rerouting) (entry other : OperationEntry) : Prop where
  operationId : other.operationId? = entry.operationId?
  parameters : List.Forall₂ (Json.ReadsAlike ParameterEntry.ofJson? (ParameterEntry.Respelled ρ))
    entry.parameters other.parameters
  body : Option.Rel (Json.ReadsAlike RequestBodyEntry.ofJson? (RequestBodyEntry.Respelled ρ))
    entry.requestBody? other.requestBody?
  responses : Entries.Paired
    (fun _ => Json.ReadsAlike ResponseEntry.ofJson? (ResponseEntry.Respelled ρ)) entry.responses
    other.responses
  security : other.security? = entry.security?

structure PathItem.Respelled (ρ : Rerouting) (item other : PathItem) : Prop where
  parameters : List.Forall₂ (Json.ReadsAlike ParameterEntry.ofJson? (ParameterEntry.Respelled ρ))
    item.parameters other.parameters
  operations : Entries.Paired (fun _ => OperationEntry.Respelled ρ) item.operations
    other.operations

namespace Scope

variable {P : Pairing} {ρ : Rerouting} {scope other : Scope}

/-- The sections of the components that hold no schemas are written in two ways. -/
structure SectionsRespelled (ρ : Rerouting) (scope other : Scope) : Prop where
  self : other.self? = scope.self?
  parameters : Entries.Paired
    (fun _ => Json.ReadsAlike ParameterEntry.ofJson? (ParameterEntry.Respelled ρ))
    scope.components.parameters other.components.parameters
  requestBodies : Entries.Paired
    (fun _ => Json.ReadsAlike RequestBodyEntry.ofJson? (RequestBodyEntry.Respelled ρ))
    scope.components.requestBodies other.components.requestBodies
  responses : Entries.Paired
    (fun _ => Json.ReadsAlike ResponseEntry.ofJson? (ResponseEntry.Respelled ρ))
    scope.components.responses other.components.responses
  headers : Entries.Paired (fun _ => Json.ReadsAlike HeaderEntry.ofJson? (HeaderEntry.Respelled ρ))
    scope.components.headers other.components.headers
  securitySchemes : other.components.securitySchemes = scope.components.securitySchemes

/-! ## Following references -/

/-- Chains of references through entries that are written in two ways pass the same names to
descriptions of the same part, written in two ways. -/
theorem exists_chain {related : Json → Json → Prop}
    (hreference : ∀ json other, related json other → Reference.of? other = Reference.of? json)
    {self? : Option String} {part : String} {entries others : Entries Json}
    (hentries : Entries.Paired (fun _ => related) entries others) {json json' found : Json}
    {names : List String} (hchain : Reference.Chain self? part entries json names found)
    (hrelated : related json json') :
    ∃ found', Reference.Chain self? part others json' names found' ∧ related found found' := by
  induction hchain generalizing json' with
  | stay => exact ⟨json', .stay json', hrelated⟩
  | @step _ target _ name _ hnames hget _ ih =>
      obtain ⟨reference, hof, htarget⟩ := hnames
      have hrel := hentries.get? name
      rw [hget] at hrel
      cases hother : Entries.get? others name with
      | none =>
          rw [hother] at hrel
          cases hrel
      | some target' =>
          rw [hother] at hrel
          obtain ⟨found', hfound', hlast⟩ := ih (Option.rel_some_some.1 hrel)
          have hof' := (hreference _ json' hrelated).trans hof
          exact ⟨found', .step ⟨reference, hof', htarget⟩ hother hfound', hlast⟩

theorem mirrors_resolve {α : Type} {read : JsonReader α} {related : α → α → Prop}
    (hself : other.self? = scope.self?) {entries others : Entries Json} {json json' : Json}
    (hentries : Entries.Paired (fun _ => Json.ReadsAlike read related) entries others)
    (hjson : Json.ReadsAlike read related json json') (part : String) :
    Mirrors P (liftM (scope.resolve part entries json) : Compilation Json)
      (liftM (other.resolve part others json')) fun _ => Json.ReadsAlike read related := by
  refine .of_except fun found hfound => ?_
  obtain ⟨⟨names, hchain⟩, hend⟩ := resolve_eq_ok_iff.1 hfound
  obtain ⟨found', hchain', hrelated⟩ :=
    exists_chain (fun _ _ hreads => hreads.1) hentries hchain hjson
  rw [← hself] at hchain'
  exact ⟨found', resolve_eq_ok_iff.2 ⟨⟨names, hchain'⟩, hrelated.1.trans hend⟩, hrelated⟩

theorem mirrors_entryOf {α : Type} {read : JsonReader α} {related : α → α → Prop}
    {json json' : Json} (hjson : Json.ReadsAlike read related json json') :
    Mirrors P (liftM (entryOf read json) : Compilation α) (liftM (entryOf read json'))
      fun _ => related := by
  refine .of_except fun entry hentry => ?_
  obtain ⟨entry', hentry', hrelated⟩ := hjson.2 entry (entryOf_eq_ok hentry)
  exact ⟨entry', by rw [entryOf, Option.mem_def.1 hentry'], hrelated⟩

/-! ## Parameters -/

theorem mirrors_readParameterSchema (hcovers : P.Covers ρ scope other) (name : String)
    {filled : Prop} {schema? schema?' : Option Json}
    {content? content?' : Option (Entries (Option Json))}
    (hschema : SchemaOrContent ρ filled schema? content? schema?' content?') :
    Mirrors P (scope.readParameterSchema name schema? content?)
      (other.readParameterSchema name schema?' content?') fun Q found found' =>
        Option.Rel (Q.Seats filled) found.1 found'.1 ∧ found'.2 = found.2 := by
  obtain ⟨hschema, hcontent⟩ := hschema
  have hplace : ∀ (schema schema' : Json) (contentType? : Option String),
      Json.Respelled ρ (some filled) schema schema' →
      Mirrors P (do return (some (← scope.placeSchema schema), contentType?))
        (do return (some (← other.placeSchema schema'), contentType?)) fun Q found found' =>
          Option.Rel (Q.Seats filled) found.1 found'.1 ∧ found'.2 = found.2 :=
    fun schema schema' contentType? hrespelled =>
      (mirrors_placeSchema hcovers hrespelled).bind fun Q id id' _ hseats =>
        .pure ⟨.some hseats, rfl⟩
  cases hschema with
  | some hschema =>
      cases hcontent with
      | some _ => exact .fail _ _
      | none => exact hplace _ _ none hschema
  | none =>
      cases hcontent with
      | none => exact .pure ⟨.none, rfl⟩
      | some hcontent =>
          cases hcontent with
          | nil => exact .fail _ _
          | @cons first first' rest rest' hfirst hrest =>
              obtain ⟨_, media⟩ := first
              obtain ⟨contentType, media'⟩ := first'
              obtain ⟨rfl, hmedia⟩ := hfirst
              cases hrest with
              | cons _ _ => cases hmedia <;> exact .fail _ _
              | nil =>
                  cases hmedia with
                  | some hmedia => exact hplace _ _ (some contentType) hmedia
                  | none => exact .pure ⟨.none, rfl⟩

theorem mirrors_readParameter (hcovers : P.Covers ρ scope other)
    (hsections : SectionsRespelled ρ scope other) {json json' : Json}
    (hjson : Json.ReadsAlike ParameterEntry.ofJson? (ParameterEntry.Respelled ρ) json json') :
    Mirrors P (scope.readParameter json) (other.readParameter json')
      fun Q => Parameter.Alike Q := by
  unfold readParameter
  refine (mirrors_resolve hsections.self hsections.parameters hjson _).bind
    fun P₁ found found' hP₁ hfound => ?_
  refine (mirrors_entryOf hfound).bind fun P₂ entry entry' hP₂ hentry => ?_
  rw [hentry.place, hentry.name, hentry.required, hentry.style, hentry.explode]
  split
  · exact .fail _ _
  · split
    · exact .fail _ _
    · refine (Mirrors.of_same _).bind fun P₃ style _ hP₃ hstyle => ?_
      subst hstyle
      refine (mirrors_readParameterSchema (hcovers.mono (hP₁.trans (hP₂.trans hP₃))) _
        hentry.schema).bind fun P₄ found found' hP₄ ⟨hschema, hcontent⟩ => ?_
      obtain ⟨schema?, contentType?⟩ := found
      obtain ⟨schema?', contentType?'⟩ := found'
      exact .pure ⟨rfl, rfl, rfl, rfl, rfl, hcontent, hschema⟩

theorem isSameParameter_congr {parameter parameter' second second' : Parameter}
    (hfirst : parameter.Alike P parameter') (hsecond : second.Alike P second') :
    isSameParameter parameter' second' = isSameParameter parameter second := by
  unfold isSameParameter
  rw [hfirst.name, hfirst.place, hsecond.name, hsecond.place]

theorem any_isSameParameter_congr {parameter parameter' : Parameter} {done done' : List Parameter}
    (hparameter : parameter.Alike P parameter') (hdone : List.Forall₂ (Parameter.Alike P) done done') :
    done'.any (isSameParameter parameter') = done.any (isSameParameter parameter) := by
  induction hdone with
  | nil => rfl
  | cons hfirst _ ih => rw [List.any_cons, List.any_cons, isSameParameter_congr hparameter hfirst, ih]

theorem mirrors_readParametersAfter (hcovers : P.Covers ρ scope other)
    (hsections : SectionsRespelled ρ scope other) {done done' : List Parameter}
    {entries entries' : List Json} (hdone : List.Forall₂ (Parameter.Alike P) done done')
    (hentries : List.Forall₂
      (Json.ReadsAlike ParameterEntry.ofJson? (ParameterEntry.Respelled ρ)) entries entries') :
    Mirrors P (scope.readParametersAfter done entries) (other.readParametersAfter done' entries')
      fun Q => List.Forall₂ (Parameter.Alike Q) := by
  induction hentries generalizing P done done' with
  | nil => exact .pure hdone
  | cons hfirst _ ih =>
      unfold readParametersAfter
      refine (mirrors_readParameter hcovers hsections hfirst).bind
        fun Q parameter parameter' hbelow hparameter => ?_
      have hdone' := hdone.imp fun _ _ hold => Parameter.Alike.mono hold hbelow
      rw [any_isSameParameter_congr hparameter hdone']
      split
      · exact .fail _ _
      · exact ih (hcovers.mono hbelow) (List.rel_append hdone' (.cons hparameter .nil))

theorem mirrors_readParameters (hcovers : P.Covers ρ scope other)
    (hsections : SectionsRespelled ρ scope other) {entries entries' : List Json}
    (hentries : List.Forall₂
      (Json.ReadsAlike ParameterEntry.ofJson? (ParameterEntry.Respelled ρ)) entries entries') :
    Mirrors P (scope.readParameters entries) (other.readParameters entries')
      fun Q => List.Forall₂ (Parameter.Alike Q) :=
  mirrors_readParametersAfter hcovers hsections .nil hentries

theorem alike_mergeParameters {own own' common common' : List Parameter}
    (hown : List.Forall₂ (Parameter.Alike P) own own')
    (hcommon : List.Forall₂ (Parameter.Alike P) common common') :
    List.Forall₂ (Parameter.Alike P) (mergeParameters own common)
      (mergeParameters own' common') := by
  refine List.rel_append hown ?_
  induction hcommon with
  | nil => exact .nil
  | cons hfirst _ ih =>
      rw [List.filter_cons, List.filter_cons, any_isSameParameter_congr hfirst hown]
      split
      · exact .cons hfirst ih
      · exact ih

theorem mirrors_readHeader (hcovers : P.Covers ρ scope other)
    (hsections : SectionsRespelled ρ scope other) (name : String) {json json' : Json}
    (hjson : Json.ReadsAlike HeaderEntry.ofJson? (HeaderEntry.Respelled ρ) json json') :
    Mirrors P (scope.readHeader name json) (other.readHeader name json')
      fun Q => Parameter.Alike Q := by
  unfold readHeader
  refine (mirrors_resolve hsections.self hsections.headers hjson _).bind
    fun P₁ found found' hP₁ hfound => ?_
  refine (mirrors_entryOf hfound).bind fun P₂ entry entry' hP₂ hentry => ?_
  rw [hentry.required, hentry.style, hentry.explode]
  refine (Mirrors.of_same _).bind fun P₃ style _ hP₃ hstyle => ?_
  subst hstyle
  refine (mirrors_readParameterSchema (hcovers.mono (hP₁.trans (hP₂.trans hP₃))) _
    hentry.schema).bind fun P₄ found found' hP₄ ⟨hschema, hcontent⟩ => ?_
  obtain ⟨schema?, contentType?⟩ := found
  obtain ⟨schema?', contentType?'⟩ := found'
  exact .pure ⟨rfl, rfl, rfl, rfl, rfl, hcontent, hschema⟩

/-! ## Bodies and responses -/

theorem mirrors_readContent (hcovers : P.Covers ρ scope other)
    {entries entries' : Entries (Option Json)}
    (hentries : Entries.Paired (fun _ => Option.Rel (Json.Respelled ρ (some False))) entries
      entries') :
    Mirrors P (scope.readContent entries) (other.readContent entries')
      fun Q => Content.Alike Q := by
  have hstable : Pairing.Stable fun Q => Option.Rel (Q.Seats False) :=
    (Pairing.stable_seats False).rel
  unfold readContent
  refine Mirrors.bind (Mirrors.mapM_paired (fun _ => hstable) hentries ?_)
    fun Q pairs pairs' _ hpairs => .pure hpairs.ofPairs
  intro Q contentType schema? schema?' hbelow hschema
  cases hschema with
  | none => exact .pure ⟨rfl, .none⟩
  | some hschema =>
      exact (mirrors_placeSchema (hcovers.mono hbelow) hschema).bind
        fun R id id' _ hseats => .pure ⟨rfl, .some hseats⟩

theorem mirrors_readRequestBody (hcovers : P.Covers ρ scope other)
    (hsections : SectionsRespelled ρ scope other) {json json' : Json}
    (hjson : Json.ReadsAlike RequestBodyEntry.ofJson? (RequestBodyEntry.Respelled ρ) json json') :
    Mirrors P (scope.readRequestBody json) (other.readRequestBody json')
      fun Q => RequestBody.Alike Q := by
  unfold readRequestBody
  refine (mirrors_resolve hsections.self hsections.requestBodies hjson _).bind
    fun P₁ found found' hP₁ hfound => ?_
  refine (mirrors_entryOf hfound).bind fun P₂ entry entry' hP₂ hentry => ?_
  refine (mirrors_readContent (hcovers.mono (hP₁.trans hP₂)) hentry.content).bind
    fun P₃ content content' hP₃ hcontent => ?_
  exact .pure ⟨hentry.required, hcontent⟩

theorem stable_parameter : Pairing.Stable fun P => Parameter.Alike P :=
  fun _ _ _ _ hbelow halike => halike.mono hbelow

theorem mirrors_readResponse (hcovers : P.Covers ρ scope other)
    (hsections : SectionsRespelled ρ scope other) {json json' : Json}
    (hjson : Json.ReadsAlike ResponseEntry.ofJson? (ResponseEntry.Respelled ρ) json json') :
    Mirrors P (scope.readResponse json) (other.readResponse json')
      fun Q => DeclaredResponse.Alike Q := by
  unfold readResponse
  refine (mirrors_resolve hsections.self hsections.responses hjson _).bind
    fun P₁ found found' hP₁ hfound => ?_
  refine (mirrors_entryOf hfound).bind fun P₂ entry entry' hP₂ hentry => ?_
  have hcovers₂ := hcovers.mono (hP₁.trans hP₂)
  have hdeclared := hentry.headers.filter fun name => !Text.sameLetters name "content-type"
  refine Mirrors.bind (Mirrors.mapM stable_parameter hdeclared
    fun Q header header' hbelow hheader => ?_) fun P₃ headers headers' hP₃ hheaders => ?_
  · obtain ⟨_, json⟩ := header
    obtain ⟨name, json'⟩ := header'
    obtain ⟨rfl, hjson⟩ := hheader
    exact mirrors_readHeader (hcovers₂.mono hbelow) hsections _ hjson
  refine (mirrors_readContent (hcovers₂.mono hP₃) hentry.content).bind
    fun P₄ content content' hP₄ hcontent => .pure ?_
  exact ⟨hcontent, hheaders.imp fun _ _ hheader => hheader.mono hP₄⟩

theorem stable_response : Pairing.Stable fun P => DeclaredResponse.Alike P :=
  fun _ _ _ _ hbelow halike => halike.mono hbelow

theorem mirrors_readResponses (hcovers : P.Covers ρ scope other)
    (hsections : SectionsRespelled ρ scope other) {entries entries' : Entries Json}
    (hentries : Entries.Paired
      (fun _ => Json.ReadsAlike ResponseEntry.ofJson? (ResponseEntry.Respelled ρ)) entries entries') :
    Mirrors P (scope.readResponses entries) (other.readResponses entries')
      fun Q => Entries.Paired fun _ => DeclaredResponse.Alike Q := by
  unfold readResponses
  have hdeclared := hentries.filter fun status => !isExtension status
  refine Mirrors.bind (Mirrors.mapM_paired (fun _ => stable_response) hdeclared ?_)
    fun Q pairs pairs' _ hpairs => .pure hpairs.ofPairs
  intro Q status json json' hbelow hjson
  exact (mirrors_readResponse (hcovers.mono hbelow) hsections hjson).bind
    fun R response response' _ hresponse => .pure ⟨rfl, hresponse⟩

/-! ## Operations -/

/-- The body of an operation, if it declares one. -/
def readBody? (scope : Scope) (json? : Option Json) : Compilation (Option RequestBody) :=
  match json? with
  | some json => some <$> scope.readRequestBody json
  | none => pure none

/-- What secures an operation: its own groups, else those of the whole description. -/
def readOwnSecurity (schemes : Entries SecurityScheme) (security : List SecurityGroup)
    (groups? : Option (List SecurityGroup)) : Except ContractFault (List SecurityGroup) :=
  match groups? with
  | some groups => readSecurity schemes groups
  | none => .ok security

theorem readOperation_eq (scope : Scope) (schemes : Entries SecurityScheme)
    (security : List SecurityGroup) (path : String) (common : List Parameter) (method : String)
    (entry : OperationEntry) :
    scope.readOperation schemes security path common method entry = (do
      let own ← scope.readParameters entry.parameters
      let body? ← scope.readBody? entry.requestBody?
      let responses ← scope.readResponses entry.responses
      let security ← readOwnSecurity schemes security entry.security?
      return {
        method, path, body?, responses, security
        operationId? := entry.operationId?
        parameters := mergeParameters own common }) := by
  unfold readOperation readBody? readOwnSecurity
  cases entry.requestBody? <;> cases entry.security? <;> rfl

theorem mirrors_readBody? (hcovers : P.Covers ρ scope other)
    (hsections : SectionsRespelled ρ scope other) {json? json?' : Option Json}
    (hjson : Option.Rel (Json.ReadsAlike RequestBodyEntry.ofJson? (RequestBodyEntry.Respelled ρ))
      json? json?') :
    Mirrors P (scope.readBody? json?) (other.readBody? json?')
      fun Q => Option.Rel (RequestBody.Alike Q) := by
  cases hjson with
  | none => exact .pure .none
  | some hjson =>
      exact (mirrors_readRequestBody hcovers hsections hjson).map fun _ _ _ _ hbody => .some hbody

theorem mirrors_readOperation (hcovers : P.Covers ρ scope other)
    (hsections : SectionsRespelled ρ scope other) (schemes : Entries SecurityScheme)
    (security : List SecurityGroup) (path : String) {common common' : List Parameter}
    (hcommon : List.Forall₂ (Parameter.Alike P) common common') (method : String)
    {entry entry' : OperationEntry} (hentry : entry.Respelled ρ entry') :
    Mirrors P (scope.readOperation schemes security path common method entry)
      (other.readOperation schemes security path common' method entry')
      fun Q => Operation.Alike Q := by
  rw [readOperation_eq, readOperation_eq, hentry.operationId, hentry.security]
  refine (mirrors_readParameters hcovers hsections hentry.parameters).bind
    fun P₁ own own' hP₁ hown => ?_
  refine (mirrors_readBody? (hcovers.mono hP₁) hsections hentry.body).bind
    fun P₂ body? body?' hP₂ hbody => ?_
  refine (mirrors_readResponses (hcovers.mono (hP₁.trans hP₂)) hsections hentry.responses).bind
    fun P₃ responses responses' hP₃ hresponses => ?_
  refine (Mirrors.of_same _).bind fun P₄ groups _ hP₄ hgroups => .pure ?_
  have hP₂₄ := hP₂.trans (hP₃.trans hP₄)
  constructor
  case parameters =>
    exact alike_mergeParameters (hown.imp fun _ _ halike => halike.mono hP₂₄)
      (hcommon.imp fun _ _ halike => halike.mono (hP₁.trans hP₂₄))
  case body => exact rel_imp hbody fun _ _ halike => halike.mono (hP₃.trans hP₄)
  case responses => exact hresponses.imp fun _ _ _ halike => halike.mono hP₄
  case security => exact hgroups.symm
  all_goals rfl

theorem mirrors_readPath (hcovers : P.Covers ρ scope other)
    (hsections : SectionsRespelled ρ scope other) (schemes : Entries SecurityScheme)
    (security : List SecurityGroup) (path : String) {json json' : Json}
    (hjson : ∀ item ∈ PathItem.ofJson? json, ∃ item' ∈ PathItem.ofJson? json',
      item.Respelled ρ item') :
    Mirrors P (scope.readPath schemes security path json)
      (other.readPath schemes security path json')
      fun Q => List.Forall₂ (Operation.Alike Q) := by
  unfold readPath
  split
  · exact .fail _ _
  · next item hitem =>
      obtain ⟨item', hitem', hrespelled⟩ := hjson item hitem
      rw [Option.mem_def.1 hitem']
      refine (mirrors_readParameters hcovers hsections hrespelled.parameters).bind
        fun Q common common' hbelow hcommon => ?_
      refine Mirrors.mapM (fun _ _ _ _ hbelow halike => Operation.Alike.mono halike hbelow)
        hrespelled.operations ?_
      rintro R ⟨_, entry⟩ ⟨method, entry'⟩ hbelow' ⟨rfl, hentry⟩
      exact mirrors_readOperation (hcovers.mono (hbelow.trans hbelow')) hsections schemes security
        path (hcommon.imp fun _ _ hparameter => hparameter.mono hbelow') _ hentry

end Scope

/-! ## Descriptions -/

/-- What the references of a description are resolved against. -/
def Document.scope (document : Document) : Scope := ⟨document.self?, document.components⟩

/-- The second description says what the first one says. -/
structure Document.Respelled (ρ : Rerouting) (document other : Document) : Prop where
  schemas : document.scope.Respelled ρ other.scope
  sections : document.scope.SectionsRespelled ρ other.scope
  openapi : other.openapi? = document.openapi?
  swagger : other.swagger? = document.swagger?
  servers : other.servers = document.servers
  security : other.security? = document.security?
  paths : Entries.Paired (fun _ json json' => ∀ item ∈ PathItem.ofJson? json,
    ∃ item' ∈ PathItem.ofJson? json', item.Respelled ρ item') document.paths other.paths

/-- Two contracts say the same, up to the positions of their schemas. -/
structure Contract.Alike (P : Pairing) (contract other : Contract) : Prop where
  schemas : P.Settles contract.schemas other.schemas
  operations : List.Forall₂ (Operation.Alike P) contract.operations other.operations
  securitySchemes : other.securitySchemes = contract.securitySchemes
  basePaths : other.basePaths = contract.basePaths

namespace Document

variable {ρ : Rerouting} {document other : Document}

theorem forall₂_flatten {α β : Type} {related : α → β → Prop} {lists : List (List α)}
    {others : List (List β)} (hall : List.Forall₂ (List.Forall₂ related) lists others) :
    List.Forall₂ related lists.flatten others.flatten := by
  induction hall with
  | nil => exact .nil
  | cons hfirst _ ih => exact List.rel_append hfirst ih

theorem Respelled.mirrors_operations (hrespelled : document.Respelled ρ other) {P : Pairing}
    (hcovers : P.Covers ρ document.scope other.scope) (schemes : Entries SecurityScheme)
    (security : List SecurityGroup) :
    Mirrors P
      ((document.paths.filter fun (path, _) => !Scope.isExtension path).mapM fun (path, json) =>
        document.scope.readPath schemes security path json)
      ((other.paths.filter fun (path, _) => !Scope.isExtension path).mapM fun (path, json) =>
        other.scope.readPath schemes security path json)
      fun Q => List.Forall₂ (List.Forall₂ (Operation.Alike Q)) := by
  have hpaths := hrespelled.paths.filter fun path => !Scope.isExtension path
  have hstable : Pairing.Stable fun Q => Operation.Alike Q :=
    fun _ _ _ _ hbelow halike => halike.mono hbelow
  refine Mirrors.mapM hstable.forall₂ hpaths ?_
  rintro Q ⟨_, json⟩ ⟨path, json'⟩ hbelow ⟨rfl, hjson⟩
  exact Scope.mirrors_readPath (hcovers.mono hbelow) hrespelled.sections schemes security _ hjson

theorem readSecuritySchemes_congr (hrespelled : document.Respelled ρ other) :
    other.scope.readSecuritySchemes = document.scope.readSecuritySchemes := by
  unfold Scope.readSecuritySchemes Scope.resolve
  rw [hrespelled.sections.securitySchemes, hrespelled.sections.self]

theorem basePaths_congr (hrespelled : document.Respelled ρ other) :
    other.basePaths = document.basePaths := by
  unfold basePaths
  rw [hrespelled.servers]

/-- Compiling reads the components, then what is secured, then the operations. -/
theorem run_compile (document : Document) :
    StateT.run document.compile {} = (do
      let (_, table) ← StateT.run document.scope.readComponents {}
      let schemes ← document.scope.readSecuritySchemes
      let security ← Scope.readSecurity schemes (document.security?.getD [])
      let (operations, final) ← StateT.run
        ((document.paths.filter fun (path, _) => !Scope.isExtension path).mapM fun (path, json) =>
          document.scope.readPath schemes security path json) table
      .ok ({
        schemas := final
        operations := operations.flatten
        basePaths := document.basePaths
        securitySchemes := schemes }, final)) := by
  unfold compile
  rw [StateT.run_bind]
  refine bind_congr fun read => ?_
  rw [StateT.run_bind]
  change ((document.scope.readSecuritySchemes >>= fun schemes => .ok (schemes, read.2)) >>= _) = _
  rw [bind_assoc]
  refine bind_congr fun schemes => ?_
  change ((Scope.readSecurity schemes (document.security?.getD []) >>=
    fun security => .ok (security, read.2)) >>= _) = _
  rw [bind_assoc]
  rfl

/-- When the first description compiles, so does the second, and the contracts say the same. -/
theorem Respelled.exists_alike (hrespelled : document.Respelled ρ other) {contract : Contract}
    {table : SchemaTable} (hrun : StateT.run document.compile {} = .ok (contract, table)) :
    ∃ contract' table' P, StateT.run other.compile {} = .ok (contract', table') ∧
      (Scope.pairing ρ document.scope other.scope).Below P ∧ contract.Alike P contract' := by
  rw [run_compile] at hrun ⊢
  obtain ⟨⟨_, first⟩, hcomponents, hrun⟩ := ok_of_bind_eq_ok hrun
  obtain ⟨schemes, hschemes, hrun⟩ := ok_of_bind_eq_ok hrun
  obtain ⟨security, hsecurity, hrun⟩ := ok_of_bind_eq_ok hrun
  obtain ⟨⟨operations, final⟩, hoperations, hrun⟩ := ok_of_bind_eq_ok hrun
  obtain ⟨rfl, rfl⟩ := Prod.mk.inj (Except.ok.inj hrun)
  obtain ⟨first', P, hcomponents', hbelow, hsettles⟩ :=
    hrespelled.schemas.exists_settles hcomponents
  have hcovers := hrespelled.schemas.covers.mono hbelow
  obtain ⟨operations', final', Q, hoperations', hgrows, hfits, halike⟩ :=
    hrespelled.mirrors_operations hcovers schemes security first first' hsettles.toFits operations
      final hoperations
  refine ⟨⟨final', operations'.flatten, schemes, other.basePaths⟩, final', Q, ?_,
    hbelow.trans hgrows.below, hsettles.grows hgrows hfits, forall₂_flatten halike, rfl,
    basePaths_congr hrespelled⟩
  rw [readSecuritySchemes_congr hrespelled, hrespelled.security]
  refine (bind_of_eq_ok hcomponents').trans ((bind_of_eq_ok hschemes).trans ?_)
  exact (bind_of_eq_ok hsecurity).trans ((bind_of_eq_ok hoperations').trans rfl)

end Document

end ApiContract
