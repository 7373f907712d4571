import ApiContract.Entries
import ApiContract.Text.Ascii
import ApiContract.Text.Blank
import ApiContract.Text.Split

/-!
# Media types

A media type names the format of a body: a type and a subtype in lower case, and parameters. Ranges
such as `text/*` are media types too.
-/

namespace ApiContract

structure MediaType where
  main : String
  subtype : String
  parameters : Entries String
  deriving DecidableEq

namespace MediaType

/-- One parameter: a name in lower case and a value without the quotes around it. -/
def parameter? (field : List Char) : Option (String × String) :=
  match Text.splitFirst? '=' field with
  | none => none
  | some (name, value) =>
    let name := (Text.trim name).map Text.lowerChar
    if name.isEmpty then none
    else some (String.ofList name, String.ofList (Text.trimBy (· == '"') (Text.trim value)))

/-- Parameters between semicolons; the last value of a name counts. -/
def readParameters (text : List Char) : Entries String :=
  Entries.ofPairs ((Text.splitAll ';' text).filterMap parameter?)

/-- The media type that a text names. -/
def ofText? (text : List Char) : Option MediaType :=
  let (essence, parameters) := (Text.splitFirst? ';' text).getD (text, [])
  match Text.splitFirst? '/' (Text.trim essence) with
  | none => none
  | some (main, subtype) =>
    let main := Text.trim main
    let subtype := Text.trim subtype
    if main.isEmpty || subtype.isEmpty then none
    else
      some {
        main := String.ofList (main.map Text.lowerChar)
        subtype := String.ofList (subtype.map Text.lowerChar)
        parameters := readParameters parameters }

def ofString? (text : String) : Option MediaType := ofText? text.toList

/-- Type and subtype without parameters. -/
def essence (mediaType : MediaType) : String := mediaType.main ++ "/" ++ mediaType.subtype

/-- What stands behind the last plus sign of the subtype. -/
def suffix? (mediaType : MediaType) : Option String :=
  (Text.splitLast? '+' mediaType.subtype.toList).map fun (_, suffix) => String.ofList suffix

/-- The range of all subtypes of the type. -/
def wildcard (mediaType : MediaType) : String := mediaType.main ++ "/*"

/-- The keys under which a reader of the media type may be known, the most specific first. -/
def candidates (mediaType : MediaType) : List String :=
  let bySuffix :=
    match mediaType.suffix? with
    | some suffix => [mediaType.main ++ "/*+" ++ suffix]
    | none => []
  mediaType.essence :: bySuffix ++ [mediaType.wildcard]

def isJson (mediaType : MediaType) : Bool :=
  mediaType.essence == "application/json" || mediaType.suffix? == some "json"

end MediaType

/-- Picks a declared entry for a content type: one of the same essence, else of its type, else for
any type. Without a content type, the only entry of a map is picked. -/
def selectMediaType? {α : Type} (content : Entries α) (contentType? : Option String) :
    Option (String × α) :=
  match contentType? with
  | none =>
    match content with
    | [only] => some only
    | _ => none
  | some text =>
    match MediaType.ofString? text with
    | none => none
    | some wanted =>
      let declared (essence : String) : Option (String × α) :=
        content.find? fun (name, _) =>
          (MediaType.ofString? name).any fun mediaType => mediaType.essence == essence
      (declared wanted.essence).or ((declared wanted.wildcard).or (declared "*/*"))

end ApiContract
