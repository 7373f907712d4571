import ApiContract.Json.Basic
import ApiContract.Text.Ascii

/-!
# Writing JSON

The compact text of a JSON value: no blanks, members in order, and only the quote, the backslash and
control characters escaped.
-/

namespace ApiContract.Json

/-- One character inside quotes. -/
def escapeChar (c : Char) : List Char :=
  match c with
  | '"' => ['\\', '"']
  | '\\' => ['\\', '\\']
  | '\n' => ['\\', 'n']
  | '\r' => ['\\', 'r']
  | '\t' => ['\\', 't']
  | c =>
    let n := c.toNat
    if n = 8 then ['\\', 'b']
    else if n = 12 then ['\\', 'f']
    else if n < 32 then
      ['\\', 'u', '0', '0', Text.hexDigit (n / 16), Text.hexDigit (n % 16)]
    else [c]

/-- A text in quotes. -/
def quote (text : String) : List Char := '"' :: text.toList.flatMap escapeChar ++ ['"']

mutual

/-- The compact text of a value; a number that is not finite is written as `null`. -/
def render : Json → List Char
  | .null => "null".toList
  | .bool true => "true".toList
  | .bool false => "false".toList
  | .integer value => (toString value).toList
  | .decimal value => (value.toJsonNumeral?.getD "null").toList
  | .string value => quote value
  | .array items => '[' :: renderItems items ++ [']']
  | .object members => Char.ofNat 0x7B :: renderMembers members ++ [Char.ofNat 0x7D]

def renderItems : List Json → List Char
  | [] => []
  | [item] => render item
  | item :: rest => render item ++ ',' :: renderItems rest

def renderMembers : List (String × Json) → List Char
  | [] => []
  | [(name, value)] => quote name ++ ':' :: render value
  | (name, value) :: rest => quote name ++ ':' :: render value ++ ',' :: renderMembers rest

end

/-- The compact text of a value. -/
def toText (json : Json) : String := String.ofList json.render

end ApiContract.Json
