import ApiContract.Json.Printer
import ApiContract.Parameter.Place

/-!
# What is wrong with a description

The causes for which a description cannot be compiled, or cannot be used to validate messages.
-/

namespace ApiContract

/-- Why a name in a description leads nowhere. -/
inductive ReferenceFault where
  | unresolved (reference : String)
  | circular (reference : String)
  | undefinedScheme (name : String)
  deriving DecidableEq, Repr

def ReferenceFault.message : ReferenceFault → String
  | .unresolved reference => reference
  | .circular reference => s!"Circular reference at '{reference}'"
  | .undefinedScheme name => s!"Security requirement references undefined scheme '{name}'"

/-- Why a part of a description makes no sense. -/
inductive DocumentFault where
  | unsupportedVersion (version : String)
  | olderVersion (version : String)
  | noVersion
  | pathItem (path : String)
  | notSchema (json : Json)
  | unknownType (name : String)
  | discriminatorWithoutProperty
  | mappingNotText (tag : String)
  | duplicateParameter (name : String) (place : Place)
  | unknownPlace (name place : String)
  | optionalPathParameter (name : String)
  | styleNotAllowed (name : String) (style : Style) (place : Place)
  | schemaAndContent (name : String)
  | notOneContent (name : String)
  | keyWithoutName (scheme : String)
  | keyWithoutPlace (scheme : String)
  | httpWithoutScheme (scheme : String)
  | unknownSchemeType (scheme type : String)

def DocumentFault.message : DocumentFault → String
  | .unsupportedVersion version =>
    s!"Unsupported OpenAPI version: {version}. Only 3.x is supported."
  | .olderVersion version => s!"Swagger {version} documents must be converted to OpenAPI 3.x first"
  | .noVersion => "Invalid OpenAPI document: missing 'openapi' version field."
  | .pathItem path => s!"Failed to parse path item '{path}'"
  | .notSchema json => s!"Unsupported schema definition: {json.toText}"
  | .unknownType name => s!"Unknown schema type '{name}'"
  | .discriminatorWithoutProperty => "Discriminator missing 'propertyName'"
  | .mappingNotText tag => s!"Discriminator mapping '{tag}' must be a string"
  | .duplicateParameter name place => s!"Duplicate parameter '{name}' in location '{place.name}'"
  | .unknownPlace name place => s!"Parameter '{name}' has unsupported location '{place}'"
  | .optionalPathParameter name => s!"Path parameter '{name}' must set required: true"
  | .styleNotAllowed name style place =>
    s!"Parameter '{name}' uses style '{style.name}' which is not allowed " ++
      s!"for {place.name} parameters"
  | .schemaAndContent name => s!"Parameter '{name}' cannot specify both 'schema' and 'content'"
  | .notOneContent name =>
    s!"Parameter '{name}' must define exactly one media type in 'content'"
  | .keyWithoutName scheme => s!"apiKey scheme '{scheme}' missing 'name'"
  | .keyWithoutPlace scheme =>
    s!"apiKey scheme '{scheme}' must be located in query, header or cookie"
  | .httpWithoutScheme scheme => s!"http scheme '{scheme}' missing 'scheme'"
  | .unknownSchemeType scheme type =>
    s!"Security scheme '{scheme}' has unsupported type '{type}'"

/-- Why a description cannot be used. -/
inductive ContractFault where
  /-- The text is no YAML. -/
  | notYaml
  /-- The text is no JSON, or its parts do not have the form that they should. -/
  | notJson
  /-- A pattern of a schema cannot be read. -/
  | pattern
  | reference (cause : ReferenceFault)
  | document (cause : DocumentFault)
  | repeatedPlaceholder (template name : String)

def ContractFault.message : ContractFault → String
  | .notYaml => "YAML Error"
  | .notJson => "JSON Error"
  | .pattern => "Regex Error"
  | .reference cause => s!"Reference Error: {cause.message}"
  | .document cause => s!"Document Error: {cause.message}"
  | .repeatedPlaceholder template name =>
    s!"General Error: Path template '{template}' contains duplicate path parameter '{name}'"

end ApiContract
