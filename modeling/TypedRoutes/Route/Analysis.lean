import TypedRoutes.Error
import TypedRoutes.Naming.TypeName
import TypedRoutes.Path
import TypedRoutes.Route.Endpoint

/-! # From a module to an endpoint

What is known of a module comes from an analysis, a record of lookups over some state.  A module is
a handler if its default export is a named function whose parameter and promised result have types
that can be declared in a client.
-/

namespace TypedRoutes.Route
open TypedRoutes.Text TypedRoutes.Naming

structure FunctionRef where
  file : String
  name : Option String
  parameterCount : Nat
  deriving DecidableEq, Repr

inductive DefaultExport where
  | function (f : FunctionRef)
  | anonymousFunction
  | arrowFunction
  | classDeclaration
  | reExport
  | expression
  deriving DecidableEq, Repr

structure SymbolRef where
  file : String
  name : String
  deriving DecidableEq, Repr

/-- A type as a signature writes it, and the name it refers to, if it is no more than that. -/
structure ResolvedType where
  text : String
  symbol : Option SymbolRef
  deriving DecidableEq, Repr

/-- Lookups in modules; a file's facts may be kept until the file is released. -/
structure Analysis (σ : Type) where
  exportedDefault : String → σ → Except Fault (Option DefaultExport) × σ
  parameterType : FunctionRef → Nat → σ → Option ResolvedType
  /-- The only type argument of what the function returns. -/
  returnTypeArgument : FunctionRef → σ → Option ResolvedType
  declarationText : SymbolRef → σ → Option String
  release : String → σ → σ

namespace Analysis
variable {σ : Type} (a : Analysis σ)

/-- The type to declare for a type in a signature: that of the declaration it names, or an alias
named after the function. -/
def typeInfo (state : σ) (functionName : String) (role : TypeRole) (resolved : ResolvedType) :
    Option TypeInfo :=
  if isBlankText resolved.text then none
  else
    match resolved.symbol with
    | some symbol =>
      (a.declarationText symbol state).map fun declaration =>
        ⟨stripQualifier resolved.text, declaration⟩
    | none =>
      let name := synthesizedName functionName role
      some ⟨name, aliasDeclaration name resolved.text⟩

inductive BodyType where
  | typed (info : TypeInfo)
  | parameterless
  | unusable
  deriving DecidableEq, Repr

def bodyType (allowParameterless : Bool) (state : σ) (f : FunctionRef) (functionName : String) :
    BodyType :=
  match a.parameterType f 0 state with
  | some resolved =>
    match a.typeInfo state functionName .body resolved with
    | some info => .typed info
    | none => .unusable
  | none => if allowParameterless && f.parameterCount = 0 then .parameterless else .unusable

def endpointOf (allowParameterless : Bool) (file : String) (segments : List String) (state : σ)
    (f : FunctionRef) : Option Endpoint := do
  let functionName ← f.name
  if functionName.isEmpty then none
  let body ←
    match a.bodyType allowParameterless state f functionName with
    | .typed info => some (some info)
    | .parameterless => some none
    | .unusable => none
  let returns ← (a.returnTypeArgument f state).bind (a.typeInfo state functionName .response)
  let sourceFileName ← Path.fileName? file
  return { pathSegments := segments, functionName, sourceFileName, body, returns }

/-- Inspects one module and forgets it again; a module that is no handler gives no endpoint. -/
def extract (allowParameterless : Bool) (file : String) (segments : List String) (state : σ) :
    Except Fault (Option Endpoint) × σ :=
  let (found, state) := a.exportedDefault file state
  let endpoint :=
    match found with
    | .error e => .error e
    | .ok (some (.function f)) => .ok (a.endpointOf allowParameterless file segments state f)
    | .ok _ => .ok none
  (endpoint, a.release file state)

end Analysis

end TypedRoutes.Route
