import ApiContract.Json.Basic

/-!
# What a document says

The content of a YAML document once its texts have been read as numbers, truth values and so on.
Unlike in JSON, anything may be a key. Content becomes JSON if its keys have a text.
-/

namespace ApiContract.Yaml

inductive Content where
  | null
  | bool (value : Bool)
  | integer (value : Int)
  | decimal (value : Binary64)
  | string (value : String)
  | sequence (items : List Content)
  | mapping (entries : List (Content × Content))
  | tagged (tag : String) (content : Content)
  deriving Inhabited

namespace Content

mutual

/-- Whether two keys are the same. Mappings are compared without regard to order, and what is not a
number equals itself. -/
def same : Content → Content → Bool
  | .null, .null => true
  | .bool a, .bool b => a == b
  | .integer a, .integer b => a == b
  | .decimal a, .decimal b => a.same b || (a == .nan && b == .nan)
  | .string a, .string b => a == b
  | .sequence a, .sequence b => sameItems a b
  | .mapping a, .mapping b => a.length == b.length && sameEntries a b
  | .tagged a x, .tagged b y => a == b && same x y
  | _, _ => false

def sameItems : List Content → List Content → Bool
  | [], [] => true
  | a :: as, b :: bs => same a b && sameItems as bs
  | _, _ => false

/-- Whether every entry of the first mapping is one of the second. -/
def sameEntries : List (Content × Content) → List (Content × Content) → Bool
  | [], _ => true
  | (key, a) :: as, bs =>
    (bs.any fun entry => same key entry.1 && same a entry.2) && sameEntries as bs

end

/-- Whether a key occurs twice. -/
def repeatsKey : List Content → Bool
  | [] => false
  | key :: rest => rest.any (same key) || repeatsKey rest

/-- The text of a key. -/
def keyText? : Content → Option String
  | .string text => some text
  | .bool true => some "true"
  | .bool false => some "false"
  | .integer value => some (toString value)
  | .decimal value => value.toJsonNumeral?
  | _ => none

mutual

/-- The content as JSON, if every key has a text. A number that is not finite becomes null, and the
later of two keys with the same text counts. -/
def toJson? : Content → Option Json
  | .null => some .null
  | .bool value => some (.bool value)
  | .integer value => some (.integer value)
  | .decimal value => some (if value.isFinite then .decimal value else .null)
  | .string value => some (.string value)
  | .sequence items => (itemsToJson? items).map .array
  | .mapping entries =>
    (entriesToJson? entries).map fun members => .object (Entries.ofPairs members)
  | .tagged tag content => (toJson? content).map fun json => .object [("!" ++ tag, json)]

def itemsToJson? : List Content → Option (List Json)
  | [] => some []
  | item :: rest => do
    let json ← toJson? item
    let others ← itemsToJson? rest
    some (json :: others)

def entriesToJson? : List (Content × Content) → Option (List (String × Json))
  | [] => some []
  | (key, value) :: rest => do
    let name ← keyText? key
    let json ← toJson? value
    let others ← entriesToJson? rest
    some ((name, json) :: others)

end

end Content

end ApiContract.Yaml
