import ApiContract.Entries
import ApiContract.Message.Headers
import ApiContract.Text.Blank
import ApiContract.Text.Form

/-!
# Requests and responses

The messages that are validated, independent of any server framework: what a request line, header
lines and a fully read body say.
-/

namespace ApiContract

structure Request where
  method : String
  /-- The target up to the first question mark, as it was sent. -/
  path : String
  /-- The target behind the first question mark. -/
  query : String
  headers : Headers := {}
  /-- Cookies that were split before; without any, the `Cookie` header is read. -/
  cookies : Entries String := []
  /-- The declared type of the body; without it, the `Content-Type` header counts. -/
  contentType? : Option String := none
  body : List UInt8 := []

/-- A request without headers and body for a method and a target. -/
def Request.new (method target : String) : Request :=
  match Text.splitFirst? '?' target.toList with
  | some (path, query) =>
    { method, path := String.ofList path, query := String.ofList query }
  | none => { method, path := target, query := "" }

namespace Request

def withHeader (request : Request) (name value : String) : Request :=
  { request with headers := request.headers.append name value }

def withCookie (request : Request) (name value : String) : Request :=
  { request with cookies := Entries.insert request.cookies name value }

def effectiveContentType? (request : Request) : Option String :=
  match request.contentType? with
  | some contentType => some contentType
  | none => request.headers.get? "content-type"

/-- The decoded pairs of the query, in order. -/
def queryPairs (request : Request) : List (String × String) :=
  Form.pairs (Utf8.encodeString request.query)

/-- One cookie of a `Cookie` line, trimmed; a field without equals sign or without a name is
none. -/
def cookie? (field : List Char) : Option (String × String) :=
  match Text.splitFirst? '=' field with
  | none => none
  | some (name, value) =>
    let name := Text.trim name
    if name.isEmpty then none else some (String.ofList name, String.ofList (Text.trim value))

/-- The cookies by name. -/
def cookieMap (request : Request) : Entries String :=
  if !request.cookies.isEmpty then
    request.cookies
  else
    let fields := (request.headers.getAll "cookie").flatMap fun line =>
      Text.splitAll ';' line.toList
    Entries.ofPairs (fields.filterMap cookie?)

end Request

structure Response where
  status : Nat
  headers : Headers := {}
  /-- The declared type of the body; without it, the `Content-Type` header counts. -/
  contentType? : Option String := none
  body : List UInt8 := []

def Response.effectiveContentType? (response : Response) : Option String :=
  match response.contentType? with
  | some contentType => some contentType
  | none => response.headers.get? "content-type"

end ApiContract
