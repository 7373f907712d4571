import ApiContract.Text.Utf8
import ApiContract.Violation.Basic

/-!
# What is wrong with a body

The causes for which a body cannot be read under its media type, in the body itself or in one of its
parts.
-/

namespace ApiContract

/-- Why a body does not follow its media type. -/
inductive BodyFault where
  | notJson
  | notJsonPart (name : String)
  | notUtf8 (cause : Utf8.Fault)
  | noBoundary
  | boundaryNotFound
  | boundaryNotClosed
  | noDisposition
  | noPartName
  /-- What a registered reader reports. -/
  | custom (message : String)
  deriving DecidableEq

def BodyFault.message : BodyFault → String
  | .notJson => "malformed JSON"
  | .notJsonPart name => s!"malformed JSON in part '{name}'"
  | .notUtf8 cause => s!"body is not UTF-8: {cause.message}"
  | .noBoundary => "multipart body without boundary"
  | .boundaryNotFound => "multipart boundary not found"
  | .boundaryNotClosed => "multipart closing boundary not found"
  | .noDisposition => "multipart part without Content-Disposition"
  | .noPartName => "multipart part without a name"
  | .custom message => message

/-- Why a body cannot be read. -/
inductive MediaFault where
  | unsupported (contentType : String)
  | malformed (cause : BodyFault)
  deriving DecidableEq

namespace MediaFault

def kind : MediaFault → ViolationKind
  | .unsupported _ => .mediaTypeNotSupported
  | .malformed _ => .mediaTypeDeserialize

def message : MediaFault → String
  | .unsupported contentType => s!"media type '{contentType}' is not supported"
  | .malformed cause => cause.message

def violation (fault : MediaFault) : Violation := .new fault.kind fault.message

end MediaFault

end ApiContract
