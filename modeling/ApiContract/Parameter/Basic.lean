import ApiContract.Parameter.Shape
import ApiContract.Parameter.Place

/-!
# Parameters

A declared parameter of an operation, or a declared header of a response.
-/

namespace ApiContract

structure Parameter where
  name : String
  place : Place
  /-- Whether a message without the parameter is at fault. -/
  required : Bool
  style : Style
  /-- Whether items are written one by one. -/
  explode : Bool
  schema? : Option SchemaId := none
  /-- The media type of a parameter whose text is a document of its own. -/
  contentType? : Option String := none
  deriving DecidableEq, Repr

/-- A parameter in the default style of its place. -/
def Parameter.new (name : String) (place : Place) (schema? : Option SchemaId) : Parameter where
  name := name
  place := place
  required := place == .path
  style := place.defaultStyle
  explode := place.defaultStyle.defaultExplode
  schema? := schema?

end ApiContract
