import ApiContract.Json.Record
import ApiContract.Text.Ascii

/-!
# Descriptions as they are written

The parts of a description document. Schemas and all that may be a reference stay raw JSON, because
references are resolved against the components while the description is compiled.
-/

namespace ApiContract

/-- Scheme names with the scopes they need. -/
abbrev SecurityGroup := Entries (List String)

structure ServerEntry where
  url : String
  /-- The default text of each variable of the URL. -/
  defaults : Entries String

structure Components where
  schemas : Entries Json := []
  parameters : Entries Json := []
  requestBodies : Entries Json := []
  responses : Entries Json := []
  headers : Entries Json := []
  securitySchemes : Entries Json := []

structure OperationEntry where
  operationId? : Option String
  parameters : List Json
  requestBody? : Option Json
  responses : Entries Json
  security? : Option (List SecurityGroup)

structure PathItem where
  parameters : List Json
  /-- The declared operations by method, in a fixed order of the methods. -/
  operations : List (String × OperationEntry)

structure ParameterEntry where
  name : String
  place : String
  required : Bool
  style? : Option String
  explode? : Option Bool
  schema? : Option Json
  content? : Option (Entries (Option Json))

structure HeaderEntry where
  required : Bool
  style? : Option String
  explode? : Option Bool
  schema? : Option Json
  content? : Option (Entries (Option Json))

structure RequestBodyEntry where
  required : Bool
  content : Entries (Option Json)

structure ResponseEntry where
  content : Entries (Option Json)
  headers : Entries Json

structure SecuritySchemeEntry where
  type : String
  name? : Option String
  place? : Option String
  scheme? : Option String
  bearerFormat? : Option String

structure Document where
  openapi? : Option String
  swagger? : Option String
  /-- The address of the document itself (`$self`). -/
  self? : Option String
  servers : List ServerEntry
  paths : Entries Json
  components : Components
  security? : Option (List SecurityGroup)

open JsonReader RecordReader

def securityGroups : JsonReader (List SecurityGroup) := list (map (list string))

def ServerEntry.ofJson? : JsonReader ServerEntry := run do
  let url ← field "url" string
  let defaults ← fieldOr "variables" (map (run (field "default" string))) []
  return { url, defaults }

def Components.ofJson? : JsonReader Components := run do
  let schemas ← fieldOr "schemas" (map any) []
  let parameters ← fieldOr "parameters" (map any) []
  let requestBodies ← fieldOr "requestBodies" (map any) []
  let responses ← fieldOr "responses" (map any) []
  let headers ← fieldOr "headers" (map any) []
  let securitySchemes ← fieldOr "securitySchemes" (map any) []
  return { schemas, parameters, requestBodies, responses, headers, securitySchemes }

def Document.ofJson? : JsonReader Document := run do
  let openapi? ← field? "openapi" string
  let swagger? ← field? "swagger" string
  let self? ← field? "$self" string
  let servers ← fieldOr "servers" (list ServerEntry.ofJson?) []
  let paths ← fieldOr "paths" (map any) []
  let components ← fieldOr "components" Components.ofJson? {}
  let security? ← field? "security" securityGroups
  return { openapi?, swagger?, self?, servers, paths, components, security? }

def OperationEntry.ofJson? : JsonReader OperationEntry := run do
  let operationId? ← field? "operationId" string
  let parameters ← fieldOr "parameters" (list any) []
  let requestBody? ← field? "requestBody" any
  let responses ← fieldOr "responses" (map any) []
  let security? ← field? "security" securityGroups
  return { operationId?, parameters, requestBody?, responses, security? }

/-- The methods that a path may declare, in the order of their operations. -/
def PathItem.methods : List String :=
  ["get", "put", "post", "delete", "options", "head", "patch", "trace"]

def PathItem.ofJson? : JsonReader PathItem := run do
  let parameters ← fieldOr "parameters" (list any) []
  let operations ← methods.mapM fun method => do
    return (← field? method OperationEntry.ofJson?).map fun operation =>
      (Text.uppered method, operation)
  return { parameters, operations := operations.filterMap id }

/-- A map from content types to their raw schemas. -/
def contentMap : JsonReader (Entries (Option Json)) := map (run (field? "schema" any))

def ParameterEntry.ofJson? : JsonReader ParameterEntry := run do
  let name ← field "name" string
  let place ← field "in" string
  let required ← fieldOr "required" bool false
  let style? ← field? "style" string
  let explode? ← field? "explode" bool
  let schema? ← field? "schema" any
  let content? ← field? "content" contentMap
  return { name, place, required, style?, explode?, schema?, content? }

def HeaderEntry.ofJson? : JsonReader HeaderEntry := run do
  let required ← fieldOr "required" bool false
  let style? ← field? "style" string
  let explode? ← field? "explode" bool
  let schema? ← field? "schema" any
  let content? ← field? "content" contentMap
  return { required, style?, explode?, schema?, content? }

def RequestBodyEntry.ofJson? : JsonReader RequestBodyEntry := run do
  let required ← fieldOr "required" bool false
  let content ← fieldOr "content" contentMap []
  return { required, content }

def ResponseEntry.ofJson? : JsonReader ResponseEntry := run do
  let content ← fieldOr "content" contentMap []
  let headers ← fieldOr "headers" (map any) []
  return { content, headers }

def SecuritySchemeEntry.ofJson? : JsonReader SecuritySchemeEntry := run do
  let type ← field "type" string
  let name? ← field? "name" string
  let place? ← field? "in" string
  let scheme? ← field? "scheme" string
  let bearerFormat? ← field? "bearerFormat" string
  return { type, name?, place?, scheme?, bearerFormat? }

end ApiContract
