import ApiContract.Contract.Basic
import ApiContract.Route.Template
import ApiContract.Text.Utf8
import ApiContract.Violation.Basic

/-!
# Finding operations

A request belongs to the operation whose template matches its path, or its path below the path of a
server, and that declares its method. Longer server paths are tried first, and templates in order of
their specificity.
-/

namespace ApiContract

/-- A template with the operations declared for it. -/
structure Route where
  template : PathTemplate
  operations : List Operation

/-- The routes of a contract in the order in which they are tried. -/
structure Router where
  routes : List Route
  basePaths : List String

/-- An operation with what the placeholders of its path stand for. -/
structure FoundOperation where
  operation : Operation
  captures : Entries String

/-- Why no operation belongs to a request. -/
inductive RouteFault where
  | pathNotFound (path : String)
  | methodNotAllowed (method path : String)
  deriving DecidableEq, Repr

namespace RouteFault

def kind : RouteFault → ViolationKind
  | .pathNotFound _ => .pathNotFound
  | .methodNotAllowed .. => .operationNotAllowed

def message : RouteFault → String
  | .pathNotFound path => s!"path '{path}' not found"
  | .methodNotAllowed method path => s!"operation {method} is not declared for path '{path}'"

def violation (fault : RouteFault) : Violation :=
  (Violation.new fault.kind fault.message).attach .operation

end RouteFault

namespace Router

/-- Adds an operation to the route of its template, which is new if no route has that text. -/
def addOperation (routes : List Route) (operation : Operation) :
    Except ContractFault (List Route) :=
  if routes.any fun route => route.template.text == operation.path then
    .ok (routes.map fun route =>
      if route.template.text == operation.path then
        { route with operations := route.operations ++ [operation] }
      else route)
  else
    (PathTemplate.ofText operation.path).map fun template =>
      routes ++ [{ template, operations := [operation] }]

/-- The routes of operations, those for the same template together. -/
def ofOperations (operations : List Operation) (basePaths : List String) :
    Except ContractFault Router := do
  let routes ← operations.foldlM addOperation []
  return {
    routes := routes.mergeSort fun a b => a.template.isAtLeastAsSpecific b.template
    basePaths }

def ofContract (contract : Contract) : Except ContractFault Router :=
  ofOperations contract.operations contract.basePaths

/-- The rest of a path below a base, if the path is the base or lies below it. -/
def below? (path base : List Char) : Option (List Char) :=
  match path with
  | '/' :: rest =>
    (Text.stripStart? base rest).filter fun below => below.isEmpty || below.head? == some '/'
  | _ => none

/-- The paths that a request may mean: below each server, the longest first, and as it stands. -/
def candidates (router : Router) (path : String) : List String :=
  let trimmed := router.basePaths.map fun base => Text.trimBy (· == '/') base.toList
  let bases := (trimmed.filter (!·.isEmpty)).mergeSort fun a b =>
    Utf8.byteLength b ≤ Utf8.byteLength a
  (bases.filterMap (below? path.toList)).map String.ofList ++ [path]

/-- The routes that match a path in one of its readings, in the order in which they are tried. -/
def matching (router : Router) (path : String) : List (Route × Entries String) :=
  (router.candidates path).flatMap fun candidate =>
    router.routes.filterMap fun route =>
      (route.template.match? candidate).map fun captures => (route, captures)

/-- The operation of a method and a path. -/
def find (router : Router) (method path : String) : Except RouteFault FoundOperation :=
  let method := Text.uppered method
  let matching := router.matching path
  let found? := matching.findSome? fun (route, captures) =>
    (route.operations.find? fun operation => operation.method == method).map fun operation =>
      { operation, captures : FoundOperation }
  match found?, matching with
  | some found, _ => .ok found
  | none, [] => .error (.pathNotFound path)
  | none, _ :: _ => .error (.methodNotAllowed method path)

end Router

end ApiContract
