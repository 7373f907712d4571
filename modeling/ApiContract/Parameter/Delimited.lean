import ApiContract.Parameter.Fault
import ApiContract.Parameter.Sources
import ApiContract.Value.Basic

/-!
# Texts with delimiters

Most styles write the items of a list one behind the other with a delimiter between them, and an
object either as alternating names and values or as assignments. Percent-encoded pieces are decoded
after splitting, so that an encoded delimiter is part of an item.
-/

namespace ApiContract

/-- Gives a parameter of a shape its value; `none` stands for an absent parameter. -/
abbrev StyleReader := Parameter → Shape → RawText → Except StyleFault (Option Value)

namespace StyleReader

/-- A piece of a text, decoded where it is encoded. -/
def decodePiece (isEncoded : Bool) (piece : List Char) : String :=
  String.ofList (if isEncoded then Percent.decode piece else piece)

def arrayOf (items : List String) : Value := .array (items.map .string)

/-- The pairs of alternating names and values. -/
def alternating? : List String → Option (List (String × String))
  | [] => some []
  | [_] => none
  | name :: value :: rest => (alternating? rest).map ((name, value) :: ·)

/-- The object of pairs of names and texts; the last text of a name counts. -/
def objectOf (pairs : List (String × String)) : Value :=
  .object (Entries.ofPairs (pairs.map fun (name, text) => (name, .string text)))

/-- The object of assignments. -/
def assignments (isEncoded : Bool) (pieces : List (List Char)) : Except StyleFault Value := do
  let pairs ← pieces.mapM fun piece =>
    match Text.splitFirst? '=' piece with
    | some (name, value) => .ok (decodePiece isEncoded name, decodePiece isEncoded value)
    | none => .error (.notAssignment (String.ofList piece))
  .ok (objectOf pairs)

/-- The items between delimiters; an empty text has none. -/
def pieces (delimiter : Char) (isEncoded : Bool) (text : List Char) : List String :=
  if text.isEmpty then [] else (Text.splitAll delimiter text).map (decodePiece isEncoded)

/-- The value of one text in which a delimiter separates items. -/
def split (delimiter : Char) (shape : Shape) (explode isEncoded : Bool) (text : List Char) :
    Except StyleFault Value :=
  match shape with
  | .primitive => .ok (.string (decodePiece isEncoded text))
  | .array => .ok (arrayOf (pieces delimiter isEncoded text))
  | .object _ =>
    if explode then
      assignments isEncoded ((Text.splitAll delimiter text).filter (!·.isEmpty))
    else
      match alternating? (pieces delimiter isEncoded text) with
      | some pairs => .ok (objectOf pairs)
      | none => .error .oddItems

/-- The texts of a name, in order. -/
def textsOf (pairs : List (String × String)) (name : String) : List String :=
  (pairs.filter fun pair => pair.1 = name).map Prod.snd

/-- A query parameter whose items have a pair each if it is exploded, and share one if not. -/
def ofQuery (delimiter : Char) (parameter : Parameter) (shape : Shape)
    (pairs : List (String × String)) : Except StyleFault (Option Value) :=
  let texts := textsOf pairs parameter.name
  let shared : Except StyleFault (Option Value) :=
    match texts with
    | [] => .ok none
    | text :: _ => (split delimiter shape false false text.toList).map some
  match shape with
  | .primitive => .ok (texts.head?.map .string)
  | .array =>
    if parameter.explode then .ok (if texts.isEmpty then none else some (arrayOf texts))
    else shared
  | .object properties =>
    if parameter.explode then
      let belonging := pairs.filter fun pair => properties.isEmpty || properties.contains pair.1
      .ok (if belonging.isEmpty then none else some (objectOf belonging))
    else shared

end StyleReader

end ApiContract
