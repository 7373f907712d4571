/-!
# Where a parameter is and how it is written

The four places of a request that hold parameters, the serialization styles that a description may
name, and the defaults that connect them.
-/

namespace ApiContract

/-- The place of a parameter (`in`). -/
inductive Place where
  | path
  | query
  | header
  | cookie
  deriving DecidableEq, Repr

def Place.name : Place → String
  | .path => "path"
  | .query => "query"
  | .header => "header"
  | .cookie => "cookie"

def Place.ofName? : String → Option Place
  | "path" => some .path
  | "query" => some .query
  | "header" => some .header
  | "cookie" => some .cookie
  | _ => none

/-- The serialization style of a parameter; any name that is no standard style is a custom one. -/
inductive Style where
  | matrix
  | label
  | form
  | simple
  | spaceDelimited
  | pipeDelimited
  | deepObject
  | custom (name : String)
  deriving DecidableEq, Repr

namespace Style

def name : Style → String
  | .matrix => "matrix"
  | .label => "label"
  | .form => "form"
  | .simple => "simple"
  | .spaceDelimited => "spaceDelimited"
  | .pipeDelimited => "pipeDelimited"
  | .deepObject => "deepObject"
  | .custom name => name

def ofName : String → Style
  | "matrix" => .matrix
  | "label" => .label
  | "form" => .form
  | "simple" => .simple
  | "spaceDelimited" => .spaceDelimited
  | "pipeDelimited" => .pipeDelimited
  | "deepObject" => .deepObject
  | name => .custom name

def isCustom : Style → Bool
  | .custom _ => true
  | _ => false

/-- Only the form style writes each item under its own key unless told otherwise. -/
def defaultExplode : Style → Bool
  | .form => true
  | _ => false

/-- The styles that a description may give to a parameter of a place; custom styles are free. -/
def isAllowedAt (place : Place) : Style → Bool
  | .custom _ => true
  | .matrix => place == .path
  | .label => place == .path
  | .simple => place == .path || place == .header
  | .form => place == .query || place == .cookie
  | .spaceDelimited => place == .query
  | .pipeDelimited => place == .query
  | .deepObject => place == .query

end Style

def Place.defaultStyle : Place → Style
  | .query => .form
  | .cookie => .form
  | .path => .simple
  | .header => .simple

end ApiContract
