import ApiContract.Contract.Basic
import ApiContract.Parameter.Extraction
import ApiContract.Text.Base64

/-!
# Security

An operation may require credentials: groups of schemes of which one has to be satisfied as a whole.
Only the presence and the form of credentials are judged; to verify them is left to the application.
-/

namespace ApiContract

/-- Why a request does not satisfy a scheme. -/
inductive CredentialFault where
  | undeclaredScheme (scheme : String)
  | noKey (key : String) (place : Place)
  | noAuthorization
  | otherScheme (expected : String)
  | emptyToken
  | notBasic
  deriving DecidableEq, Repr

def CredentialFault.message : CredentialFault → String
  | .undeclaredScheme scheme => s!"security scheme '{scheme}' is not declared"
  | .noKey key place => s!"API key '{key}' is missing from the {place.name}"
  | .noAuthorization => "Authorization header is missing"
  | .otherScheme expected => s!"Authorization scheme '{expected}' expected"
  | .emptyToken => "bearer token is empty"
  | .notBasic => "basic credentials are not base64 'user:password'"

/-- What the judgement of credentials depends on. -/
structure SecurityRules where
  schemes : Entries SecurityScheme
  styles : StyleRegistry
  schemas : SchemaTable

namespace SecurityRules

/-- The text of a credential, read like a parameter in the default style of its place. -/
def credential? (rules : SecurityRules) (sources : ParameterSources) (name : String)
    (place : Place) : Option String :=
  match rules.styles.extract rules.schemas (Parameter.new name place none) sources with
  | .ok (some (.string text)) => some text
  | _ => none

/-- The scheme and the credentials of an `Authorization` field. -/
def splitAuthorization (header : String) : String × List Char :=
  let trimmed := Text.trim header.toList
  match Text.splitFirst? ' ' trimmed with
  | some (scheme, credentials) => (String.ofList scheme, Text.trim credentials)
  | none => (String.ofList trimmed, [])

/-- Whether credentials are the base64 of a user name and a password with a colon between them. -/
def isUserAndPassword (credentials : List Char) : Bool :=
  match Base64.decode? .standard credentials with
  | none => false
  | some bytes =>
    match Utf8.decode bytes with
    | .ok text => text.contains ':'
    | .error _ => false

/-- Judges the `Authorization` field under a scheme. -/
def checkHttp (rules : SecurityRules) (sources : ParameterSources) (scheme : String) :
    Except CredentialFault Unit :=
  match rules.credential? sources "Authorization" .header with
  | none => .error .noAuthorization
  | some header =>
    let (given, credentials) := splitAuthorization header
    if !Text.sameLetters given scheme then .error (.otherScheme scheme)
    else if scheme == "bearer" && credentials.isEmpty then .error .emptyToken
    else if scheme == "basic" && !isUserAndPassword credentials then .error .notBasic
    else .ok ()

/-- Judges a request under one scheme. -/
def check (rules : SecurityRules) (sources : ParameterSources) (name : String) :
    Except CredentialFault Unit :=
  match Entries.get? rules.schemes name with
  | none => .error (.undeclaredScheme name)
  | some (.apiKey key place) =>
    match rules.credential? sources key place with
    | some text => if text.isEmpty then .error (.noKey key place) else .ok ()
    | none => .error (.noKey key place)
  | some (.http scheme _) => rules.checkHttp sources scheme
  | some .oauth2 => rules.checkHttp sources "bearer"
  | some .openIdConnect => rules.checkHttp sources "bearer"
  | some .mutualTls => .ok ()

/-- Judges a request under one more scheme: whether all schemes so far are satisfied, and why each that
is not failed first. -/
def checkNext (rules : SecurityRules) (sources : ParameterSources)
    (state : Bool × Entries CredentialFault) (name : String) : Bool × Entries CredentialFault :=
  match rules.check sources name with
  | .ok () => state
  | .error fault => (false, Entries.insertNew state.2 name fault)

/-- Judges a request under each scheme of a group, with what is known from earlier groups. -/
def checkGroup (rules : SecurityRules) (sources : ParameterSources) (group : SecurityGroup)
    (faults : Entries CredentialFault) : Bool × Entries CredentialFault :=
  (Entries.keys group).foldl (rules.checkNext sources) (true, faults)

/-- Tries groups up to the first one that is satisfied. -/
def tryGroups (rules : SecurityRules) (sources : ParameterSources) :
    List SecurityGroup → Entries CredentialFault → Except (Entries CredentialFault) (List String)
  | [], faults => .error faults
  | group :: rest, faults =>
    match rules.checkGroup sources group faults with
    | (true, _) => .ok (Entries.keys group)
    | (false, faults) => rules.tryGroups sources rest faults

/-- The violation of a scheme that is not satisfied. -/
def accusation (name : String) (fault : CredentialFault) : Violation :=
  (Violation.new .securityValidation fault.message).attach (.security name)

/-- The schemes of the first satisfied group; without groups there is nothing to satisfy. When no
group is satisfied, each unsatisfied scheme is at fault once. -/
def validate (rules : SecurityRules) (groups : List SecurityGroup) (sources : ParameterSources) :
    Except (List Violation) (List String) :=
  if groups.isEmpty then .ok []
  else
    (rules.tryGroups sources groups []).mapError fun faults =>
      faults.map fun (name, fault) => accusation name fault

end SecurityRules

end ApiContract
