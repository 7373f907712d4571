import ApiContract.Message.Exchange
import ApiContract.Parameter.Basic

/-!
# Where the texts of parameters come from

Path segments, headers and cookies hold one text for each parameter. The query holds the pairs of
all parameters together, because a style may need pairs under several keys.
-/

namespace ApiContract

/-- The text that holds a parameter. -/
inductive RawText where
  /-- All pairs of the query, decoded; a style picks those it needs. -/
  | pairs (pairs : List (String × String))
  /-- One text, whose pieces are percent-decoded after splitting if `isEncoded`. -/
  | single (text : String) (isEncoded : Bool)
  deriving DecidableEq

/-- The texts of one message. -/
structure ParameterSources where
  /-- What the placeholders of the path stand for, not decoded. -/
  path : Entries String := []
  query : List (String × String) := []
  headers : Headers := {}
  cookies : Entries String := []

namespace ParameterSources

/-- The texts of a request whose path placeholders stand for `captures`. -/
def ofRequest (request : Request) (captures : Entries String) : ParameterSources where
  path := captures
  query := request.queryPairs
  headers := request.headers
  cookies := request.cookieMap

/-- The texts of a response, which are its headers. -/
def ofResponse (response : Response) : ParameterSources := { headers := response.headers }

/-- The text that holds a parameter, if its place has one. -/
def rawText? (sources : ParameterSources) (parameter : Parameter) : Option RawText :=
  match parameter.place with
  | .path => (Entries.get? sources.path parameter.name).map (.single · true)
  | .query => some (.pairs sources.query)
  | .header => (sources.headers.joined? parameter.name).map (.single · false)
  | .cookie => (Entries.get? sources.cookies parameter.name).map (.single · true)

end ParameterSources

end ApiContract
