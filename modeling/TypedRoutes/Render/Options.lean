import TypedRoutes.Error
import TypedRoutes.Text.Basic

/-! # What rendering depends on -/

namespace TypedRoutes.Render
open TypedRoutes.Text

inductive RouteStyle where
  | table
  | register
  deriving DecidableEq, Repr

namespace RouteStyle

def name : RouteStyle → String
  | table => "table"
  | register => "register"

/-- The style of a name, in any case and with blanks around it. -/
def ofText (text : String) : Except ConfigFault RouteStyle :=
  match lowerAscii (trim text) with
  | "table" => .ok .table
  | "register" => .ok .register
  | other => .error (.routeStyle other)

end RouteStyle

structure Options where
  endpointPathPrefix : String := "/"
  clientName : String := "RpcClient"
  routeStyle : RouteStyle := .table
  importsBase : String := "../api"
  indent : String := "\t"
  emitHeader : Bool := true
  deriving DecidableEq, Repr

end TypedRoutes.Render
