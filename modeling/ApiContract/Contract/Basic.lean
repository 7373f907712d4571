import ApiContract.Contract.Document
import ApiContract.Parameter.Basic

/-!
# Contracts

A contract is a compiled description: its schemas in one table, its operations, and what they need
to be secured. It is made once and then only read.
-/

namespace ApiContract

/-- How a caller proves who it is. -/
inductive SecurityScheme where
  | apiKey (name : String) (place : Place)
  /-- Authentication by the `Authorization` header under a scheme such as `basic`. -/
  | http (scheme : String) (bearerFormat? : Option String)
  | oauth2
  | openIdConnect
  /-- Certificates, which are settled before there is a request. -/
  | mutualTls
  deriving DecidableEq, Repr

/-- The schemas of bodies by content type. -/
abbrev Content := Entries (Option SchemaId)

structure RequestBody where
  /-- Whether a request without a body is at fault. -/
  required : Bool := false
  content : Content := []
  deriving DecidableEq, Repr

structure DeclaredResponse where
  content : Content := []
  headers : List Parameter := []
  deriving DecidableEq, Repr

structure Operation where
  /-- The method in upper case. -/
  method : String
  /-- The template of the path, with placeholders in braces. -/
  path : String
  operationId? : Option String := none
  parameters : List Parameter := []
  body? : Option RequestBody := none
  /-- What may be answered, by status (`200`, `2XX` or `default`). -/
  responses : Entries DeclaredResponse := []
  /-- Groups of schemes; all of a group are needed, and any one group is enough. -/
  security : List SecurityGroup := []
  deriving DecidableEq, Repr

structure Contract where
  schemas : SchemaTable := {}
  operations : List Operation := []
  securitySchemes : Entries SecurityScheme := []
  /-- The paths of the servers that operations are below. -/
  basePaths : List String := []

end ApiContract
