import ApiContract.Contract.SchemaReading
import ApiContract.Json.Reader
import ApiContract.Yaml.Reader

/-!
# Compiling a description

The components' schemas come first, then the security schemes, then the operations of each path. The
parameters of a path belong to each of its operations, unless the operation declares one of the same
name at the same place; the security of an operation replaces that of the whole description.
-/

namespace ApiContract

namespace Scope

/-- What an object of a components section stands for. -/
def resolve (scope : Scope) (part : String) (entries : Entries Json) (json : Json) :
    Except ContractFault Json :=
  (Reference.resolve scope.self? part entries json).mapError .reference

/-- Reads a resolved object. -/
def entryOf {α : Type} (read : JsonReader α) (json : Json) : Except ContractFault α :=
  match read json with
  | some entry => .ok entry
  | none => .error .notJson

/-- The schema and the media type of a parameter, which has a schema or a single media type. -/
def readParameterSchema (scope : Scope) (name : String) (schema? : Option Json)
    (content? : Option (Entries (Option Json))) :
    Compilation (Option SchemaId × Option String) := do
  match schema?, content? with
  | some _, some _ => Compilation.fail (.schemaAndContent name)
  | some schema, none => return (some (← scope.placeSchema schema), none)
  | none, some [(contentType, some schema)] =>
    return (some (← scope.placeSchema schema), some contentType)
  | none, some [(contentType, none)] => return (none, some contentType)
  | none, some _ => Compilation.fail (.notOneContent name)
  | none, none => return (none, none)

/-- The style of a parameter, which its place has to allow. -/
def readStyle (name : String) (place : Place) (style? : Option String) :
    Except ContractFault Style :=
  let style := (style?.map Style.ofName).getD place.defaultStyle
  if style.isAllowedAt place then .ok style
  else .error (.document (.styleNotAllowed name style place))

def readParameter (scope : Scope) (json : Json) : Compilation Parameter := do
  let json ← scope.resolve "parameters" scope.components.parameters json
  let entry ← entryOf ParameterEntry.ofJson? json
  match Place.ofName? entry.place with
  | none => Compilation.fail (.unknownPlace entry.name entry.place)
  | some place =>
    if place == .path && !entry.required then
      Compilation.fail (.optionalPathParameter entry.name)
    else
      let style ← readStyle entry.name place entry.style?
      let (schema?, contentType?) ←
        scope.readParameterSchema entry.name entry.schema? entry.content?
      return {
        name := entry.name
        place, style, schema?, contentType?
        required := entry.required
        explode := entry.explode?.getD style.defaultExplode }

/-- Whether two parameters have the same name and the same place. -/
def isSameParameter (a b : Parameter) : Bool := a.name == b.name && a.place == b.place

/-- Reads parameters behind those that are `done`; no two may have the same name and place. -/
def readParametersAfter (scope : Scope) (done : List Parameter) :
    List Json → Compilation (List Parameter)
  | [] => return done
  | json :: rest => do
    let parameter ← scope.readParameter json
    if done.any (isSameParameter parameter) then
      Compilation.fail (.duplicateParameter parameter.name parameter.place)
    else
      scope.readParametersAfter (done ++ [parameter]) rest

def readParameters (scope : Scope) (entries : List Json) : Compilation (List Parameter) :=
  scope.readParametersAfter [] entries

/-- The parameters of an operation, followed by those of its path that it does not declare. -/
def mergeParameters (own common : List Parameter) : List Parameter :=
  own ++ common.filter fun parameter => !own.any (isSameParameter parameter)

/-- A header of a response, which is a parameter in all but name. -/
def readHeader (scope : Scope) (name : String) (json : Json) : Compilation Parameter := do
  let json ← scope.resolve "headers" scope.components.headers json
  let entry ← entryOf HeaderEntry.ofJson? json
  let style ← readStyle name .header entry.style?
  let (schema?, contentType?) ← scope.readParameterSchema name entry.schema? entry.content?
  return {
    name, style, schema?, contentType?
    place := .header
    required := entry.required
    explode := entry.explode?.getD false }

/-- The schemas of bodies, by content types in lower case. -/
def readContent (scope : Scope) (entries : Entries (Option Json)) : Compilation Content := do
  let pairs ← entries.mapM fun (contentType, schema?) => do
    match schema? with
    | some schema => return (Text.lowered contentType, some (← scope.placeSchema schema))
    | none => return (Text.lowered contentType, none)
  return Entries.ofPairs pairs

def readRequestBody (scope : Scope) (json : Json) : Compilation RequestBody := do
  let json ← scope.resolve "requestBodies" scope.components.requestBodies json
  let entry ← entryOf RequestBodyEntry.ofJson? json
  return { required := entry.required, content := ← scope.readContent entry.content }

/-- A response; its content type is described by the content, never by a header. -/
def readResponse (scope : Scope) (json : Json) : Compilation DeclaredResponse := do
  let json ← scope.resolve "responses" scope.components.responses json
  let entry ← entryOf ResponseEntry.ofJson? json
  let declared := entry.headers.filter fun (name, _) => !Text.sameLetters name "content-type"
  let headers ← declared.mapM fun (name, header) => scope.readHeader name header
  return { headers, content := ← scope.readContent entry.content }

/-- The name of a status: digits, a range such as `2XX`, or `default`. -/
def statusName (status : String) : String :=
  if Text.sameLetters status "default" then "default" else Text.uppered status

/-- Whether a name is that of an extension. -/
def isExtension (name : String) : Bool := (Text.stripStart? ['x', '-'] name.toList).isSome

def readResponses (scope : Scope) (entries : Entries Json) :
    Compilation (Entries DeclaredResponse) := do
  let declared := entries.filter fun (status, _) => !isExtension status
  let pairs ← declared.mapM fun (status, response) => do
    return (statusName status, ← scope.readResponse response)
  return Entries.ofPairs pairs

/-- Groups of schemes, all of which are declared. -/
def readSecurity (schemes : Entries SecurityScheme) (groups : List SecurityGroup) :
    Except ContractFault (List SecurityGroup) :=
  groups.mapM fun group =>
    match (Entries.keys group).find? fun name => !Entries.contains schemes name with
    | some name => .error (.reference (.undefinedScheme name))
    | none => .ok group

def readSecurityScheme (name : String) (entry : SecuritySchemeEntry) :
    Except ContractFault SecurityScheme :=
  match entry.type with
  | "apiKey" =>
    match entry.name? with
    | none => .error (.document (.keyWithoutName name))
    | some key =>
      match (entry.place?.bind Place.ofName?).filter (· != .path) with
      | some place => .ok (.apiKey key place)
      | none => .error (.document (.keyWithoutPlace name))
  | "http" =>
    match entry.scheme? with
    | some scheme => .ok (.http (Text.lowered scheme) entry.bearerFormat?)
    | none => .error (.document (.httpWithoutScheme name))
  | "oauth2" => .ok .oauth2
  | "openIdConnect" => .ok .openIdConnect
  | "mutualTLS" => .ok .mutualTls
  | type => .error (.document (.unknownSchemeType name type))

def readSecuritySchemes (scope : Scope) : Except ContractFault (Entries SecurityScheme) :=
  let entries := scope.components.securitySchemes
  entries.mapM fun (name, json) => do
    let json ← scope.resolve "securitySchemes" entries json
    let entry ← entryOf SecuritySchemeEntry.ofJson? json
    return (name, ← readSecurityScheme name entry)

/-- One operation of a path with the parameters that all its operations have in common. -/
def readOperation (scope : Scope) (schemes : Entries SecurityScheme)
    (security : List SecurityGroup) (path : String) (common : List Parameter) (method : String)
    (entry : OperationEntry) : Compilation Operation := do
  let own ← scope.readParameters entry.parameters
  let body? ←
    match entry.requestBody? with
    | some json => some <$> scope.readRequestBody json
    | none => pure none
  let responses ← scope.readResponses entry.responses
  let security ←
    match entry.security? with
    | some groups => readSecurity schemes groups
    | none => pure security
  return {
    method, path, body?, responses, security
    operationId? := entry.operationId?
    parameters := mergeParameters own common }

/-- The operations of a path. -/
def readPath (scope : Scope) (schemes : Entries SecurityScheme) (security : List SecurityGroup)
    (path : String) (json : Json) : Compilation (List Operation) := do
  match PathItem.ofJson? json with
  | none => Compilation.fail (.pathItem path)
  | some item =>
    let common ← scope.readParameters item.parameters
    item.operations.mapM fun (method, entry) =>
      scope.readOperation schemes security path common method entry

end Scope

namespace Document

/-- Only descriptions of version 3 are understood. -/
def checkVersion (document : Document) : Except ContractFault Unit :=
  match document.openapi?, document.swagger? with
  | some version, _ =>
    if (Text.stripStart? ['3', '.'] version.toList).isSome then .ok ()
    else .error (.document (.unsupportedVersion version))
  | none, some version => .error (.document (.olderVersion version))
  | none, none => .error (.document .noVersion)

/-- The URL of a server with its variables filled in. -/
def filledUrl (server : ServerEntry) : List Char :=
  server.defaults.foldl
    (fun url (name, text) =>
      Text.replaceAll (Char.ofNat 0x7B :: name.toList ++ [Char.ofNat 0x7D]) text.toList url)
    server.url.toList

/-- The path of a server without slashes at its end; a URL that cannot be read is taken as a
path. -/
def serverPath (server : ServerEntry) : List Char :=
  let url := filledUrl server
  let path :=
    match Url.ofText? url with
    | some url => url.path.toList
    | none => url
  Text.dropTrailing (· == '/') path

/-- The paths of the servers that operations are below, each once. -/
def basePaths (document : Document) : List String :=
  let paths := (document.servers.map serverPath).filter fun path => path.head? == some '/'
  (paths.map String.ofList).eraseDups

def compile (document : Document) : Compilation Contract := do
  let scope : Scope := ⟨document.self?, document.components⟩
  scope.readComponents
  let securitySchemes ← scope.readSecuritySchemes
  let security ← Scope.readSecurity securitySchemes (document.security?.getD [])
  let paths := document.paths.filter fun (path, _) => !Scope.isExtension path
  let operations ← paths.mapM fun (path, json) =>
    scope.readPath securitySchemes security path json
  return {
    schemas := ← get
    operations := operations.flatten
    basePaths := document.basePaths
    securitySchemes }

end Document

namespace Contract

/-- Compiles a description that was read as JSON. -/
def ofJson (json : Json) : Except ContractFault Contract := do
  let document ← Scope.entryOf Document.ofJson? json
  document.checkVersion
  let (contract, _) ← document.compile.run {}
  return contract

/-- Compiles a description in JSON. -/
def ofJsonText (text : String) : Except ContractFault Contract :=
  match Json.ofString? text with
  | some json => ofJson json
  | none => .error .notJson

/-- Compiles a description in YAML. -/
def ofYamlText (text : String) : Except ContractFault Contract :=
  match Yaml.toJson text with
  | .ok json => ofJson json
  | .error .malformed => .error .notYaml
  | .error .keyWithoutText => .error .notJson

end Contract

end ApiContract
