import ApiContract.Format.Basic
import ApiContract.Schema.Basic
import ApiContract.Violation.Basic

/-!
# What is wrong with a value

The causes for which a schema refuses a value. Each has a category, which names the keyword for a
violated bound, and a message with the values that were compared.
-/

namespace ApiContract

/-- A keyword that a value does not respect. -/
inductive Excess where
  | tooShort (length least : Nat)
  | tooLong (length most : Nat)
  | mismatch (text pattern : String)
  | below (isExclusive : Bool) (value bound : Binary64)
  | above (isExclusive : Bool) (value bound : Binary64)
  | notMultiple (value step : Binary64)
  | tooFewItems (count least : Nat)
  | tooManyItems (count most : Nat)
  | repeatedItems
  | tooFewProperties (count least : Nat)
  | tooManyProperties (count most : Nat)
  deriving DecidableEq

namespace Excess

def keyword : Excess → String
  | .tooShort .. => "minLength"
  | .tooLong .. => "maxLength"
  | .mismatch .. => "pattern"
  | .below isExclusive .. => if isExclusive then "exclusiveMinimum" else "minimum"
  | .above isExclusive .. => if isExclusive then "exclusiveMaximum" else "maximum"
  | .notMultiple .. => "multipleOf"
  | .tooFewItems .. => "minItems"
  | .tooManyItems .. => "maxItems"
  | .repeatedItems => "uniqueItems"
  | .tooFewProperties .. => "minProperties"
  | .tooManyProperties .. => "maxProperties"

def message : Excess → String
  | .tooShort length least => s!"length {length} is below {least}"
  | .tooLong length most => s!"length {length} exceeds {most}"
  | .mismatch text pattern => s!"'{text}' does not match '{pattern}'"
  | .below _ value bound => s!"{value.toPositional} is below {bound.toPositional}"
  | .above _ value bound => s!"{value.toPositional} exceeds {bound.toPositional}"
  | .notMultiple value step => s!"{value.toPositional} is not a multiple of {step.toPositional}"
  | .tooFewItems count least => s!"{count} items, expected at least {least}"
  | .tooManyItems count most => s!"{count} items, expected at most {most}"
  | .repeatedItems => "array items are not unique"
  | .tooFewProperties count least => s!"{count} properties, expected at least {least}"
  | .tooManyProperties count most => s!"{count} properties, expected at most {most}"

end Excess

/-- Why a schema refuses a value. -/
inductive SchemaFault where
  | nullNotAllowed
  | wrongType (expected : SchemaType) (actual : ValueKind)
  | excess (cause : Excess)
  | notListed (value : Json)
  | format (name : String) (cause : FormatFault)
  | missingProperty (name : String)
  | undeclaredProperty (name : String)
  | noTag (property : String)
  | unknownTag (tag : String)
  | noneOfOne
  | manyOfOne (count : Nat)
  | noneOfAny

namespace SchemaFault

def kind : SchemaFault → ViolationKind
  | .nullNotAllowed => .nullNotAllowed
  | .wrongType expected actual => .invalidType expected.name actual.name
  | .excess cause => .constraintViolation cause.keyword
  | .notListed _ => .enumMismatch
  | .format name _ => .format name
  | .missingProperty _ => .missingProperty
  | .undeclaredProperty _ => .unexpectedProperty
  | .noTag _ => .undefinedDiscriminatorValue
  | .unknownTag _ => .undefinedDiscriminatorValue
  | .noneOfOne => .noOneOfMatch
  | .manyOfOne _ => .multipleOneOfMatch
  | .noneOfAny => .noAnyOfMatch

def message : SchemaFault → String
  | .nullNotAllowed => "null is not allowed"
  | .wrongType expected actual => s!"expected {expected.name}, got {actual.name}"
  | .excess cause => cause.message
  | .notListed value => s!"{value.toText} is not one of the allowed values"
  | .format _ cause => cause.message
  | .missingProperty name => s!"required property '{name}' is missing"
  | .undeclaredProperty name => s!"property '{name}' is not declared"
  | .noTag property => s!"discriminator property '{property}' is missing"
  | .unknownTag tag => s!"discriminator value '{tag}' is not mapped"
  | .noneOfOne => "value does not match any oneOf schema"
  | .manyOfOne count => s!"value matches {count} oneOf schemas"
  | .noneOfAny => "value does not match any anyOf schema"

/-- The fault as a violation at the root of the value. -/
def violation (fault : SchemaFault) : Violation := .new fault.kind fault.message

end SchemaFault

end ApiContract
