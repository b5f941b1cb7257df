import TypedRoutes.Path
import TypedRoutes.Render.Options

/-! # Settings of a run

A setting that is absent has a default; one configuration put over another gives way wherever it
has the default.
-/

namespace TypedRoutes
open TypedRoutes.Text TypedRoutes.Render

structure BundleConfig where
  outDir : String := "dist"
  esbuild : String := "esbuild"
  deriving DecidableEq, Repr

structure Config where
  entryDir : String := "./src/api"
  endpointPathPrefix : String := "/"
  routerPath : String := "src/rpcRouter.ts"
  clientOutDir : String := "src/client"
  clientName : String := "RpcClient"
  clientTemplate : Option String := none
  serverTemplate : Option String := none
  routeStyle : RouteStyle := .table
  indent : String := "\t"
  importsBase : Option String := none
  allowParameterless : Option Bool := none
  excludePatterns : Option (List String) := none
  emitHeader : Option Bool := none
  verbose : Option Bool := some false
  bundle : Option BundleConfig := none
  deriving DecidableEq, Repr

namespace Config

def isVerbose (c : Config) : Bool := c.verbose.getD false

def allowsParameterless (c : Config) : Bool := c.allowParameterless.getD true

def emitsHeader (c : Config) : Bool := c.emitHeader.getD true

def clientPath (c : Config) : String := Path.join c.clientOutDir (c.clientName ++ ".ts")

/-- The module path of the handlers: the one that is set, or the way from the router's directory to
the entry directory, both seen from a base. -/
def resolvedImportsBase (c : Config) (base : String) : String :=
  match c.importsBase with
  | some given => dropEndChar '/' given
  | none => Path.relativeModulePath ((Path.parent? c.routerPath).getD "") c.entryDir base

def renderOptions (c : Config) (base : String) : Render.Options where
  endpointPathPrefix := c.endpointPathPrefix
  clientName := c.clientName
  routeStyle := c.routeStyle
  importsBase := c.resolvedImportsBase base
  indent := c.indent
  emitHeader := c.emitsHeader

/-- A setting put over another: it counts unless it is the default. -/
def preferring {α : Type} [DecidableEq α] (default lower upper : α) : α :=
  if upper = default then lower else upper

def merge (lower upper : Config) : Config :=
  let standard : Config := {}
  { entryDir := preferring standard.entryDir lower.entryDir upper.entryDir
    endpointPathPrefix :=
      preferring standard.endpointPathPrefix lower.endpointPathPrefix upper.endpointPathPrefix
    routerPath := preferring standard.routerPath lower.routerPath upper.routerPath
    clientOutDir := preferring standard.clientOutDir lower.clientOutDir upper.clientOutDir
    clientName := preferring standard.clientName lower.clientName upper.clientName
    clientTemplate := upper.clientTemplate.or lower.clientTemplate
    serverTemplate := upper.serverTemplate.or lower.serverTemplate
    routeStyle := preferring standard.routeStyle lower.routeStyle upper.routeStyle
    indent := preferring standard.indent lower.indent upper.indent
    importsBase := upper.importsBase.or lower.importsBase
    allowParameterless := upper.allowParameterless.or lower.allowParameterless
    excludePatterns := upper.excludePatterns.or lower.excludePatterns
    emitHeader := upper.emitHeader.or lower.emitHeader
    verbose := upper.verbose.or lower.verbose
    bundle := upper.bundle.or lower.bundle }

end Config

end TypedRoutes
