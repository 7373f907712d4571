import ApiContract.Text.Percent

/-!
# Form encoding

The pairs of an `application/x-www-form-urlencoded` text: fields between ampersands, each a name
and, behind the first equals sign, a value; a plus sign stands for a space.
-/

namespace ApiContract.Form

/-- Bytes between the occurrences of `separator`. -/
def splitBytes (separator : UInt8) : List UInt8 → List (List UInt8)
  | [] => [[]]
  | b :: rest =>
    if b = separator then
      [] :: splitBytes separator rest
    else
      match splitBytes separator rest with
      | [] => [[b]]
      | field :: fields => (b :: field) :: fields

/-- A name or a value, read with plus signs as spaces. -/
def component (bytes : List UInt8) : String :=
  let spaced := bytes.map fun b => if b = 0x2B then 0x20 else b
  String.ofList (Utf8.decodeLossy (Percent.decodeBytes spaced))

/-- The name and the value of one field. -/
def field (bytes : List UInt8) : String × String :=
  let name := bytes.takeWhile (· ≠ 0x3D)
  let value := (bytes.dropWhile (· ≠ 0x3D)).drop 1
  (component name, component value)

/-- The pairs of a form, in order; empty fields are no pairs. -/
def pairs (bytes : List UInt8) : List (String × String) :=
  ((splitBytes 0x26 bytes).filter (!·.isEmpty)).map field

end ApiContract.Form
