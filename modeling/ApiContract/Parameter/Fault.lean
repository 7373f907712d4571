import ApiContract.Violation.Basic

/-!
# What is wrong with the text of a parameter

The causes for which a style finds no value in the text of a parameter, and those for which a
parameter has no value at all.
-/

namespace ApiContract

/-- Why a text does not follow the style of its parameter. -/
inductive StyleFault where
  | oddItems
  | notAssignment (piece : String)
  | labelStart (text : String)
  | matrixStart (text : String)
  | matrixItem (piece name : String)
  | labelPlace
  | matrixPlace
  | delimitedPlace
  | deepObjectPlace
  | deepObjectShape
  | deepObjectKey (segment : String)
  | deepObjectProperty
  | deepObjectConflict (key : String)
  /-- What a registered style reports. -/
  | custom (message : String)
  deriving DecidableEq

def StyleFault.message : StyleFault → String
  | .oddItems => "object value has an odd number of key/value items"
  | .notAssignment piece => s!"expected key=value, got '{piece}'"
  | .labelStart text => s!"label value '{text}' must start with '.'"
  | .matrixStart text => s!"matrix value '{text}' must start with ';'"
  | .matrixItem piece name => s!"matrix item '{piece}' does not belong to '{name}'"
  | .labelPlace => "label style applies to path parameters"
  | .matrixPlace => "matrix style applies to path parameters"
  | .delimitedPlace => "delimited styles apply to query parameters"
  | .deepObjectPlace => "deepObject style applies to query parameters"
  | .deepObjectShape => "deepObject style only serializes objects"
  | .deepObjectKey segment => s!"malformed deepObject key segment '{segment}'"
  | .deepObjectProperty => "deepObject key without property"
  | .deepObjectConflict key => s!"deepObject key '{key}' is both a value and an object"
  | .custom message => message

/-- Why a parameter has no value that could be judged. -/
inductive ParameterFault where
  | missing
  | unknownStyle (name : String)
  | malformed (cause : StyleFault)
  deriving DecidableEq

namespace ParameterFault

def kind : ParameterFault → ViolationKind
  | .missing => .missingParameter
  | .unknownStyle _ => .parameterDeserialize
  | .malformed _ => .parameterDeserialize

def message : ParameterFault → String
  | .missing => "required parameter is missing"
  | .unknownStyle name => s!"style '{name}' is not supported"
  | .malformed cause => cause.message

def violation (fault : ParameterFault) (place : Place) (name : String) : Violation :=
  (Violation.new fault.kind fault.message).attach (.parameter place name)

end ParameterFault

end ApiContract
