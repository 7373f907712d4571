import ApiContract.Parameter.Place

/-!
# Violations

What validation finds wrong: the part of the message concerned, the place inside its value, a
category, and a text for people.
-/

namespace ApiContract

/-- The category of a violation. -/
inductive ViolationKind where
  | pathNotFound
  | operationNotAllowed
  | missingParameter
  | parameterDeserialize
  | mediaTypeNotSupported
  | mediaTypeDeserialize
  | missingRequestBody
  | undeclaredResponse
  | invalidType (expected actual : String)
  | format (name : String)
  | nullNotAllowed
  | missingProperty
  | unexpectedProperty
  | noOneOfMatch
  | multipleOneOfMatch
  | noAnyOfMatch
  | undefinedDiscriminatorValue
  | enumMismatch
  | constraintViolation (keyword : String)
  | securityValidation
  deriving DecidableEq, Repr

namespace ViolationKind

/-- The name under which programs know the category. -/
def code : ViolationKind → String
  | .pathNotFound => "pathNotFound"
  | .operationNotAllowed => "operationNotAllowed"
  | .missingParameter => "missingParameter"
  | .parameterDeserialize => "parameterDeserialize"
  | .mediaTypeNotSupported => "mediaTypeNotSupported"
  | .mediaTypeDeserialize => "mediaTypeDeserialize"
  | .missingRequestBody => "missingRequestBody"
  | .undeclaredResponse => "undeclaredResponse"
  | .invalidType .. => "invalidType"
  | .format _ => "format"
  | .nullNotAllowed => "nullNotAllowed"
  | .missingProperty => "missingProperty"
  | .unexpectedProperty => "unexpectedProperty"
  | .noOneOfMatch => "noOneOfMatch"
  | .multipleOneOfMatch => "multipleOneOfMatch"
  | .noAnyOfMatch => "noAnyOfMatch"
  | .undefinedDiscriminatorValue => "undefinedDiscriminatorValue"
  | .enumMismatch => "enumMismatch"
  | .constraintViolation _ => "constraintViolation"
  | .securityValidation => "securityValidation"

/-- The category in words. -/
def describe : ViolationKind → String
  | .pathNotFound => "path not found"
  | .operationNotAllowed => "operation not allowed"
  | .missingParameter => "missing parameter"
  | .parameterDeserialize => "parameter deserialize error"
  | .mediaTypeNotSupported => "media type not supported"
  | .mediaTypeDeserialize => "media type deserialize error"
  | .missingRequestBody => "missing request body"
  | .undeclaredResponse => "undeclared response"
  | .invalidType expected actual => s!"invalid type: expected {expected}, got {actual}"
  | .format name => s!"invalid format '{name}'"
  | .nullNotAllowed => "null not allowed"
  | .missingProperty => "missing property"
  | .unexpectedProperty => "unexpected property"
  | .noOneOfMatch => "no oneOf match"
  | .multipleOneOfMatch => "multiple oneOf matches"
  | .noAnyOfMatch => "no anyOf match"
  | .undefinedDiscriminatorValue => "undefined discriminator value"
  | .enumMismatch => "enum mismatch"
  | .constraintViolation keyword => s!"constraint '{keyword}' violated"
  | .securityValidation => "security validation error"

/-- Whether nothing else of the message can be judged. -/
def isFatal : ViolationKind → Bool
  | .pathNotFound => true
  | .operationNotAllowed => true
  | _ => false

end ViolationKind

/-- The part of a message that a violation concerns. -/
inductive Part where
  | operation
  | parameter (place : Place) (name : String)
  | body
  | security (scheme : String)
  | response
  | responseHeader (name : String)
  | value
  deriving DecidableEq, Repr

def Part.describe : Part → String
  | .operation => "operation"
  | .parameter place name => s!"{place.name} parameter '{name}'"
  | .body => "body"
  | .security scheme => s!"security scheme '{scheme}'"
  | .response => "response"
  | .responseHeader name => s!"response header '{name}'"
  | .value => "value"

/-- One step into a value. -/
inductive Segment where
  | key (name : String)
  | index (position : Nat)
  deriving DecidableEq, Repr

/-- The steps from the root of a value to a place inside it. -/
abbrev InstancePath := List Segment

/-- One character of a reference token of a JSON pointer. -/
def escapePointerChar : Char → List Char
  | '~' => ['~', '0']
  | '/' => ['~', '1']
  | c => [c]

def Segment.token : Segment → List Char
  | .key name => name.toList.flatMap escapePointerChar
  | .index position => Nat.toDigits 10 position

/-- A path as a JSON pointer. -/
def InstancePath.pointer (path : InstancePath) : String :=
  String.ofList (path.flatMap fun segment => '/' :: segment.token)

structure Violation where
  part : Part
  path : InstancePath
  kind : ViolationKind
  message : String
  deriving DecidableEq, Repr

namespace Violation

/-- A violation at the root of a value that stands for itself. -/
def new (kind : ViolationKind) (message : String) : Violation := ⟨.value, [], kind, message⟩

/-- Attaches a violation to a part of a message. -/
def attach (violation : Violation) (part : Part) : Violation := { violation with part }

/-- Moves a violation one step down from the root. -/
def under (violation : Violation) (segment : Segment) : Violation :=
  { violation with path := segment :: violation.path }

def describe (violation : Violation) : String :=
  if violation.path.isEmpty then
    s!"{violation.part.describe}: {violation.message}"
  else
    s!"{violation.part.describe} at {violation.path.pointer}: {violation.message}"

/-- Several violations in one line. -/
def summary (violations : List Violation) : String :=
  let texts := "; ".intercalate (violations.map describe)
  s!"{violations.length} validation error(s): {texts}"

end Violation

/-- Attaches violations to a part of a message. -/
def relocate (part : Part) (violations : List Violation) : List Violation :=
  violations.map fun violation => violation.attach part

end ApiContract
