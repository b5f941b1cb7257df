import TypedRoutes.Route.Endpoint

/-! # Trees of endpoints, one node a directory -/

namespace TypedRoutes.Route

inductive Tree where
  /-- Only the root has no name. -/
  | node (name : Option String) (children : List Tree) (endpoints : List Endpoint)
  deriving Repr

namespace Tree

def name : Tree → Option String
  | node name _ _ => name

def children : Tree → List Tree
  | node _ children _ => children

def endpoints : Tree → List Endpoint
  | node _ _ endpoints => endpoints

mutual

/-- The endpoints of a tree: a node's own before those of its children, depth first. -/
def endpointsInOrder : Tree → List Endpoint
  | node _ children endpoints => endpoints ++ endpointsOfAll children

def endpointsOfAll : List Tree → List Endpoint
  | [] => []
  | t :: ts => endpointsInOrder t ++ endpointsOfAll ts

end

mutual

def endpointCount : Tree → Nat
  | node _ children endpoints => endpoints.length + endpointCountOfAll children

def endpointCountOfAll : List Tree → Nat
  | [] => 0
  | t :: ts => endpointCount t + endpointCountOfAll ts

end

def isEmpty (t : Tree) : Bool := t.endpointCount == 0

end Tree

end TypedRoutes.Route
