import ApiContract.Media.Multipart
import ApiContract.Text.Form
import ApiContract.Text.Quoted

/-!
# Reading bodies

Bodies are read by media type. The reader of a body is known under its exact type, under the suffix
of its subtype (`application/*+json`) or under its main type (`text/*`); what no reader is known for
cannot be read.
-/

namespace ApiContract

/-- A body as a value. The leaves of a textual one are texts that a schema may give types. -/
structure Body where
  value : Value
  isTextual : Bool

/-- Reads the bodies of a media type. -/
abbrev BodyReader := MediaType → List UInt8 → Except BodyFault Body

namespace BodyReader

def json : BodyReader := fun _ bytes =>
  match Json.ofBytes? bytes with
  | some json => .ok ⟨Value.ofJson json, false⟩
  | none => .error .notJson

/-- Adds a value to those of its name. -/
def addField (fields : Entries (List Value)) (field : String × Value) : Entries (List Value) :=
  Entries.insert fields field.1 ((Entries.get? fields field.1).getD [] ++ [field.2])

/-- Fields by name; a name that is repeated holds the array of its values. -/
def groupFields (fields : List (String × Value)) : Value :=
  .object (Entries.mapValues
    (fun values =>
      match values with
      | [only] => only
      | values => .array values)
    (fields.foldl addField []))

def form : BodyReader := fun _ bytes =>
  .ok ⟨groupFields ((Form.pairs bytes).map fun (name, text) => (name, .string text)), true⟩

def multipart : BodyReader := fun mediaType bytes =>
  match Entries.get? mediaType.parameters "boundary" with
  | none => .error .noBoundary
  | some boundary =>
    if boundary.isEmpty then .error .noBoundary
    else (Multipart.read boundary bytes).map fun fields => ⟨groupFields fields, true⟩

def text : BodyReader := fun _ bytes =>
  match Utf8.decodeString bytes with
  | .ok text => .ok ⟨.string text, true⟩
  | .error fault => .error (.notUtf8 fault)

/-- A body that is taken as its bytes. -/
def binary : BodyReader := fun _ bytes => .ok ⟨.bytes bytes, false⟩

end BodyReader

/-- The known readers by media type or range. -/
structure MediaRegistry where
  readers : Entries BodyReader := []

namespace MediaRegistry

/-- No readers at all. -/
def empty : MediaRegistry := {}

/-- JSON, forms, text and bytes. -/
def standard : MediaRegistry := {
  readers := [
    ("application/json", BodyReader.json),
    ("application/*+json", BodyReader.json),
    ("application/x-www-form-urlencoded", BodyReader.form),
    ("multipart/form-data", BodyReader.multipart),
    ("text/plain", BodyReader.text),
    ("text/*", BodyReader.text),
    ("application/octet-stream", BodyReader.binary)] }

/-- Adds a reader, or replaces the one of that name; letter case does not count. -/
def register (registry : MediaRegistry) (key : String) (reader : BodyReader) : MediaRegistry :=
  ⟨Entries.insert registry.readers (Text.lowered key) reader⟩

/-- The reader known under the most specific key. -/
def find? (registry : MediaRegistry) (mediaType : MediaType) : Option BodyReader :=
  mediaType.candidates.findSome? (Entries.get? registry.readers)

/-- Reads a body of a content type. -/
def read (registry : MediaRegistry) (contentType : String) (bytes : List UInt8) :
    Except MediaFault Body :=
  match MediaType.ofString? contentType with
  | none => .error (.unsupported contentType)
  | some mediaType =>
    match registry.find? mediaType with
    | none => .error (.unsupported contentType)
    | some reader =>
      match reader mediaType bytes with
      | .ok body => .ok body
      | .error fault => .error (.malformed fault)

/-- The keys of the readers in one line. -/
def listing (registry : MediaRegistry) : String :=
  Text.listing "MediaTypeRegistry" "media_types" (Entries.keys registry.readers)

end MediaRegistry

end ApiContract
