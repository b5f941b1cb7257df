import TypedRoutes.Naming.Registry
import TypedRoutes.Render.Options
import TypedRoutes.Route.Tree
import TypedRoutes.Template.Document
import TypedRoutes.Template.Fragment

/-! # Rendering the router

Every endpoint is imported under a name that nothing else in the router's module scope has, and
one route leads to each of these names.
-/

namespace TypedRoutes.Render
open TypedRoutes.Text TypedRoutes.Naming TypedRoutes.Route TypedRoutes.Template

def routerMarkers : List String := ["imports", "routes"]

def RouteStyle.fragment : RouteStyle → List Piece
  | table => tableRouteFragment
  | register => registeredRouteFragment

/-- Gives each endpoint the name it is imported under. -/
def assignNames (registry : Registry) : List Endpoint → List (Endpoint × String)
  | [] => []
  | e :: es =>
    let (importName, registry) := registry.claim e.functionName
    (e, importName) :: assignNames registry es

def importSource (base : String) (e : Endpoint) : String :=
  dropEndChar '/' base ++ "/" ++ e.sourcePath

def addRoute (options : Options) (document : Document) (e : Endpoint) (importName : String) :
    Except Fault Document := do
  let importText ← renderFragment importFragment
    [("alias", .string importName), ("source", .string (importSource options.importsBase e))]
  let routeText ← renderFragment options.routeStyle.fragment
    [("alias", .string importName), ("path", .string (e.httpPath options.endpointPathPrefix))]
  return (document.append "imports" importText).append "routes" routeText

def fillRouter (options : Options) (tree : Tree) (document : Document) :
    Except Fault Document := do
  document.require routerMarkers
  let named := assignNames (Registry.reserving document.declaredBindings)
    tree.endpointsInOrder
  named.foldlM (fun d (e, importName) => addRoute options d e importName) document

end TypedRoutes.Render
