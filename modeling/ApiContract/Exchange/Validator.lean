import ApiContract.Contract.Loading
import ApiContract.Format.Standard
import ApiContract.Media.Registry
import ApiContract.Route.Router
import ApiContract.Schema.Application
import ApiContract.Schema.Coercion
import ApiContract.Security

/-!
# Validating requests and responses

A message is judged against the operation that its request belongs to: every declared parameter, the
body and the credentials. Nothing but a failed search for the operation ends the judgement early, so
that all violations of a message are reported together, in the order of the declarations.
-/

namespace ApiContract

/-- The switches of a validator. -/
structure ValidatorOptions where
  /-- Whether texts are read as the types that their schemas declare. -/
  castParameters : Bool := true
  validateSecurity : Bool := true
  /-- Whether objects may have properties that no keyword mentions. -/
  additionalPropertiesDefault : Bool := true
  deriving DecidableEq, Repr

def ValidatorOptions.ofJson? : JsonReader ValidatorOptions := RecordReader.run do
  let castParameters ← RecordReader.fieldOr "cast_parameters" JsonReader.bool true
  let validateSecurity ← RecordReader.fieldOr "validate_security" JsonReader.bool true
  let additionalPropertiesDefault ←
    RecordReader.fieldOr "additional_properties_default" JsonReader.bool true
  return { castParameters, validateSecurity, additionalPropertiesDefault }

/-- The parameters of a message by place and name. -/
structure ParameterValues where
  path : Entries Value := []
  query : Entries Value := []
  header : Entries Value := []
  cookie : Entries Value := []

namespace ParameterValues

/-- The parameters of one place. -/
def valuesAt (values : ParameterValues) : Place → Entries Value
  | .path => values.path
  | .query => values.query
  | .header => values.header
  | .cookie => values.cookie

def get? (values : ParameterValues) (place : Place) (name : String) : Option Value :=
  Entries.get? (values.valuesAt place) name

def insert (values : ParameterValues) (place : Place) (name : String) (value : Value) :
    ParameterValues :=
  match place with
  | .path => { values with path := Entries.insert values.path name value }
  | .query => { values with query := Entries.insert values.query name value }
  | .header => { values with header := Entries.insert values.header name value }
  | .cookie => { values with cookie := Entries.insert values.cookie name value }

end ParameterValues

/-- What a valid request holds. -/
structure RequestValues where
  /-- The parameters that are present or have a default. -/
  parameters : ParameterValues
  body? : Option Value
  /-- The schemes of the group that is satisfied. -/
  security : List String

/-- What a valid response holds. -/
structure ResponseValues where
  headers : Entries Value
  body? : Option Value

/-- Why a message has no body that could be read, or is not declared at all. -/
inductive MessageFault where
  | missingBody
  | undeclaredContent (contentType? : Option String)
  | undeclaredStatus (status : Nat)
  deriving DecidableEq, Repr

namespace MessageFault

def kind : MessageFault → ViolationKind
  | .missingBody => .missingRequestBody
  | .undeclaredContent _ => .mediaTypeNotSupported
  | .undeclaredStatus _ => .undeclaredResponse

def message : MessageFault → String
  | .missingBody => "request body is required"
  | .undeclaredContent contentType? =>
    let contentType := contentType?.getD "<none>"
    s!"content type '{contentType}' is not declared"
  | .undeclaredStatus status => s!"status {status} is not declared"

def part : MessageFault → Part
  | .missingBody => .body
  | .undeclaredContent _ => .body
  | .undeclaredStatus _ => .response

def violation (fault : MessageFault) : Violation :=
  (Violation.new fault.kind fault.message).attach fault.part

end MessageFault

structure Validator where
  contract : Contract
  router : Router
  options : ValidatorOptions := {}
  formats : FormatRegistry := Format.standard
  media : MediaRegistry := .standard
  styles : StyleRegistry := .standard

namespace Validator

/-- A validator for a contract, with the standard formats, media types and styles. -/
def ofContract (contract : Contract) (options : ValidatorOptions) :
    Except ContractFault Validator := do
  return { contract, options, router := ← Router.ofContract contract }

def schemaRules (validator : Validator) : SchemaRules where
  schemas := validator.contract.schemas
  formats := validator.formats
  allowsExtras := validator.options.additionalPropertiesDefault

def securityRules (validator : Validator) : SecurityRules where
  schemes := validator.contract.securitySchemes
  styles := validator.styles
  schemas := validator.contract.schemas

/-- Reads the texts of a value as its schema declares them, if it has any and that is wanted. -/
def cast (validator : Validator) (schema? : Option SchemaId) (body : Body) : Value :=
  match schema? with
  | some id =>
    if body.isTextual && validator.options.castParameters then
      validator.contract.schemas.coerce id body.value
    else body.value
  | none => body.value

/-- A value under its schema; without a schema, any value is accepted. -/
def judgeValue (validator : Validator) (schema? : Option SchemaId) (value : Value) :
    Judgement Value :=
  match schema? with
  | some id => validator.schemaRules.apply id value
  | none => .accepted value

/-- The value of a parameter before its schema judges it: as read from the message, with the
document in its text read too, or else the default of its schema. -/
def parameterValue? (validator : Validator) (parameter : Parameter) (sources : ParameterSources) :
    Except Violation (Option Value) :=
  match validator.styles.extract validator.contract.schemas parameter sources with
  | .error fault => .error (parameter.violation fault)
  | .ok none =>
    .ok ((parameter.schema?.bind validator.contract.schemas.get?).bind fun schema =>
      schema.default?.map Value.ofJson)
  | .ok (some raw) =>
    match parameter.contentType? with
    | none => .ok (some (validator.cast parameter.schema? ⟨raw, true⟩))
    | some contentType =>
      let text := raw.asString?.getD raw.toJson.toText
      match validator.media.read contentType (Utf8.encodeString text) with
      | .ok body => .ok (some (validator.cast parameter.schema? body))
      | .error fault => .error fault.violation

/-- A parameter of a message; an absent one without a default has no value. -/
def judgeParameter (validator : Validator) (parameter : Parameter) (sources : ParameterSources)
    (part : Part) : Judgement (Option Value) :=
  match validator.parameterValue? parameter sources with
  | .error violation => .refuse (violation.attach part)
  | .ok none => .accepted none
  | .ok (some value) =>
    ((validator.judgeValue parameter.schema? value).attach part).map some

/-- A body that is not empty. -/
def judgeContent (validator : Validator) (content : Content) (contentType? : Option String)
    (bytes : List UInt8) : Judgement Value :=
  match selectMediaType? content contentType? with
  | none => .refuse (MessageFault.undeclaredContent contentType?).violation
  | some (declared, schema?) =>
    match validator.media.read (contentType?.getD declared) bytes with
    | .error fault => .refuse (fault.violation.attach .body)
    | .ok body => (validator.judgeValue schema? (validator.cast schema? body)).attach .body

def judgeRequestBody (validator : Validator) (operation : Operation) (request : Request) :
    Judgement (Option Value) :=
  match operation.body? with
  | none => .accepted none
  | some declared =>
    if request.body.isEmpty then
      if declared.required then .refuse MessageFault.missingBody.violation else .accepted none
    else
      (validator.judgeContent declared.content request.effectiveContentType? request.body).map some

/-- The schemes that a request satisfies, if that is wanted. -/
def judgeSecurity (validator : Validator) (operation : Operation) (sources : ParameterSources) :
    Judgement (List String) :=
  if validator.options.validateSecurity then
    .ofExcept (validator.securityRules.validate operation.security sources)
  else
    .accepted []

/-- Declared parameters, each at its part of a message. -/
def judgeParameters (validator : Validator) (parameters : List Parameter)
    (sources : ParameterSources) (part : Parameter → Part) :
    Judgement (List (Parameter × Option Value)) :=
  .all (parameters.map fun parameter =>
    (validator.judgeParameter parameter sources (part parameter)).map fun value? =>
      (parameter, value?))

/-- The values of parameters at their places. -/
def collect (values : List (Parameter × Option Value)) : ParameterValues :=
  values.foldl
    (fun collected (parameter, value?) =>
      match value? with
      | some value => collected.insert parameter.place parameter.name value
      | none => collected)
    {}

/-- Judges a request. -/
def validateRequest (validator : Validator) (request : Request) : Judgement RequestValues :=
  match validator.router.find request.method request.path with
  | .error fault => .refuse fault.violation
  | .ok found =>
    let operation := found.operation
    let sources := ParameterSources.ofRequest request found.captures
    let parameters := validator.judgeParameters operation.parameters sources fun parameter =>
      .parameter parameter.place parameter.name
    let body := validator.judgeRequestBody operation request
    let security := validator.judgeSecurity operation sources
    (parameters.both (body.both security)).map fun (values, body?, security) =>
      { parameters := collect values, body?, security }

/-- The declared response for a status: its own, else that of its range, else the default. -/
def findResponse? (operation : Operation) (status : Nat) : Option DeclaredResponse :=
  let declared := Entries.get? operation.responses
  (declared (toString status)).or
    ((declared (toString (status / 100) ++ "XX")).or (declared "default"))

/-- Judges the response to a request. -/
def validateResponse (validator : Validator) (request : Request) (response : Response) :
    Judgement ResponseValues :=
  match validator.router.find request.method request.path with
  | .error fault => .refuse fault.violation
  | .ok found =>
    match findResponse? found.operation response.status with
    | none => .refuse (MessageFault.undeclaredStatus response.status).violation
    | some declared =>
      let sources := ParameterSources.ofResponse response
      let headers := validator.judgeParameters declared.headers sources fun header =>
        .responseHeader header.name
      let body : Judgement (Option Value) :=
        if declared.content.isEmpty || response.body.isEmpty then .accepted none
        else
          (validator.judgeContent declared.content response.effectiveContentType?
            response.body).map some
      (headers.both body).map fun (values, body?) =>
        { headers := (collect values).header, body? }

end Validator

end ApiContract
