import ApiContract.Parameter.Nested
import ApiContract.Text.Quoted

/-!
# Styles

The standard serialization styles, and the registry in which styles are found by name.

| style            | place         | list, not exploded | list, exploded      |
|------------------|---------------|--------------------|---------------------|
| `matrix`         | path          | `;id=3,4,5`        | `;id=3;id=4;id=5`   |
| `label`          | path          | `.3,4,5`           | `.3.4.5`            |
| `form`           | query, cookie | `id=3,4,5`         | `id=3&id=4&id=5`    |
| `simple`         | path, header  | `3,4,5`            | `3,4,5`             |
| `spaceDelimited` | query         | `id=3%204%205`     | `id=3&id=4&id=5`    |
| `pipeDelimited`  | query         | `id=3\|4\|5`       | `id=3&id=4&id=5`    |
-/

namespace ApiContract

namespace StyleReader

def form : StyleReader := fun parameter shape raw =>
  match raw with
  | .pairs pairs => ofQuery ',' parameter shape pairs
  | .single text isEncoded => (split ',' shape false isEncoded text.toList).map some

def simple : StyleReader := fun parameter shape raw =>
  match raw with
  | .single text isEncoded => (split ',' shape parameter.explode isEncoded text.toList).map some
  | .pairs pairs =>
    match textsOf pairs parameter.name with
    | [] => .ok none
    | text :: _ => (split ',' shape parameter.explode false text.toList).map some

def label : StyleReader := fun parameter shape raw =>
  match raw with
  | .pairs _ => .error .labelPlace
  | .single text isEncoded =>
    match text.toList with
    | '.' :: rest =>
      let delimiter := if parameter.explode then '.' else ','
      (split delimiter shape parameter.explode isEncoded rest).map some
    | _ => .error (.labelStart text)

/-- The value of a matrix item, which has to bear the name of the parameter. -/
def matrixValue (name : String) (piece : List Char) : Except StyleFault (List Char) :=
  match Text.splitFirst? '=' piece with
  | some (key, value) =>
    if String.ofList key = name then .ok value
    else .error (.matrixItem (String.ofList piece) name)
  | none =>
    if String.ofList piece = name then .ok []
    else .error (.matrixItem (String.ofList piece) name)

def matrix : StyleReader := fun parameter shape raw =>
  match raw with
  | .pairs _ => .error .matrixPlace
  | .single text isEncoded =>
    match text.toList with
    | ';' :: rest =>
      let joined : Except StyleFault Value := do
        let value ← matrixValue parameter.name rest
        split ',' shape false isEncoded value
      let value :=
        if !parameter.explode then joined
        else
          match shape with
          | .primitive => joined
          | .array => do
            let items ← (Text.splitAll ';' rest).mapM (matrixValue parameter.name)
            .ok (arrayOf (items.map (decodePiece isEncoded)))
          | .object _ => assignments isEncoded (Text.splitAll ';' rest)
      value.map some
    | _ => .error (.matrixStart text)

/-- A query parameter whose items share one text with a delimiter of its own. -/
def delimited (delimiter : Char) : StyleReader := fun parameter shape raw =>
  match raw with
  | .pairs pairs => ofQuery delimiter parameter shape pairs
  | .single .. => .error .delimitedPlace

end StyleReader

/-- The known styles by name. -/
structure StyleRegistry where
  readers : Entries StyleReader := []

namespace StyleRegistry

/-- No styles: only parameters with a media type can be read. -/
def empty : StyleRegistry := {}

/-- The styles that descriptions use without registering anything. -/
def standard : StyleRegistry := {
  readers := [
    ("matrix", StyleReader.matrix),
    ("label", StyleReader.label),
    ("form", StyleReader.form),
    ("simple", StyleReader.simple),
    ("spaceDelimited", StyleReader.delimited ' '),
    ("pipeDelimited", StyleReader.delimited '|'),
    ("deepObject", StyleReader.deepObject)] }

/-- Adds a style, or replaces the one of that name. -/
def register (registry : StyleRegistry) (style : String) (reader : StyleReader) : StyleRegistry :=
  ⟨Entries.insert registry.readers style reader⟩

def get? (registry : StyleRegistry) (style : String) : Option StyleReader :=
  Entries.get? registry.readers style

/-- The names of the styles in one line. -/
def listing (registry : StyleRegistry) : String :=
  Text.listing "ParameterDeserializer" "styles" (Entries.keys registry.readers)

end StyleRegistry

end ApiContract
