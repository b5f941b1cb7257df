import TypedRoutes.Config.Storage
import TypedRoutes.Console.Reporter
import TypedRoutes.Emission
import TypedRoutes.Render.Document
import TypedRoutes.Route.Builder
import TypedRoutes.Script.Facts
import TypedRoutes.Template.BuiltIn

/-! # Generating a client and a router

The handlers are found, both documents rendered, and only then is anything written.
-/

namespace TypedRoutes
open TypedRoutes.Text TypedRoutes.Console TypedRoutes.Route TypedRoutes.Render TypedRoutes.Script

structure Summary where
  endpointCount : Nat
  files : List String
  bundled : Bool
  deriving DecidableEq, Repr

structure Documents where
  client : String
  router : String
  deriving DecidableEq, Repr

/-! ## Parts that only look -/

def moduleBuilder (files : FileTree) (directory : Location) (allowParameterless : Bool)
    (exclusion : Exclusion) : Builder Analyzer where
  extract := (Analyzer.analysis files directory).extract allowParameterless
  excludes := exclusion.covers

def Config.exclusion (c : Config) : Except ConfigFault Exclusion :=
  match c.excludePatterns with
  | some texts => Exclusion.ofTexts texts
  | none => .ok .standard

/-- The tree of the handlers in the entry directory, and what was noted while it was built. -/
def Config.buildTree (c : Config) (files : FileTree) (directory : Location) :
    Except Fault Tree × List Note :=
  match c.exclusion with
  | .error e => (.error (.config e), [])
  | .ok exclusion =>
    let builder := moduleBuilder files directory c.allowsParameterless exclusion
    let (result, notes, _) := builder.build files directory c.entryDir {}
    (result, notes)

def templateText (files : FileTree) (directory : Location) (builtIn : String) :
    Option String → Except Fault String
  | some path =>
    (files.readText directory path).mapError fun e =>
      .fragment ("cannot read template " ++ path ++ ": " ++ e.message)
  | none => .ok builtIn

def Config.renderDocuments (c : Config) (tree : Tree) (files : FileTree) (directory : Location) :
    Except Fault Documents := do
  let clientTemplate ← templateText files directory Template.clientTemplate c.clientTemplate
  let routerTemplate ← templateText files directory Template.routerTemplate c.serverTemplate
  let options := c.renderOptions (Config.pathOf directory)
  return {
    client := ← renderClient options tree clientTemplate
    router := ← renderRouter options tree routerTemplate }

/-- The manifest whose packages are left out of bundles. -/
def bundleManifest (files : FileTree) (directory : Location) : Except Fault (Option Manifest) :=
  (Manifest.nearest files directory (Config.pathOf directory)).mapError fun e =>
    .bundle ("cannot read package.json: " ++ e.message)

def Note.lines (logger : Logger) (notes : List Note) : List Line :=
  notes.flatMap fun n => logger.log n.level n.message

namespace Action

/-! ## Steps -/

def step {α : Type} (r : Reporter) (name : String) (body : Action α)
    (outcome : α → Option String) : Action (α × Reporter) := do
  let (r, lines) := r.start name
  say lines
  let a ← tryCatch body fun e => do
    say (r.fail e.message)
    throw e
  say (r.complete (outcome a))
  return (a, r)

def scanHandlers (logger : Logger) (c : Config) : Action Tree := do
  let (result, notes) := c.buildTree (← get).files (← read).directory
  say (Note.lines logger notes)
  let tree ← ofExcept result
  if tree.isEmpty then
    say (logger.log .warning ("No handlers found in " ++ c.entryDir ++
      ". A handler module default-exports a named async function."))
  say (tree.endpointsInOrder.flatMap fun e =>
    logger.log .verbose ("  - " ++ e.httpPath c.endpointPathPrefix ++ " (" ++ e.sourcePath ++ ")"))
  return tree

def configuredBundler (logger : Logger) (c : Config) : Action (Option Bundler) := do
  match c.bundle with
  | none => return none
  | some bundle =>
    let externals ←
      match ← inspect bundleManifest with
      | some manifest => do
        say (logger.log .verbose
          ("Externals from " ++ manifest.path ++ ": " ++ join ", " manifest.externals))
        pure manifest.externals
      | none => pure []
    return some { program := bundle.esbuild, outDir := bundle.outDir, externals }

def writeOutput (logger : Logger) (c : Config) (documents : Documents) :
    Action (List String × Bool) := do
  let bundler ← configuredBundler logger c
  let files ← emit logger bundler documents.client documents.router ⟨c.clientPath, c.routerPath⟩
  return (files, bundler.isSome)

def generate (logger : Logger) (c : Config) : Action Summary := do
  let r : Reporter := { logger, total := 4 }
  let (_, r) ← step r "Validating configuration"
    (inspect fun files directory => (c.validate files directory).mapError Fault.config)
    fun _ => some ("Scanning " ++ c.entryDir)
  let (tree, r) ← step r "Scanning handlers" (scanHandlers logger c)
    fun tree => some ("Found " ++ toString tree.endpointCount ++ " endpoints")
  let (documents, r) ← step r "Rendering client and router" (inspect (c.renderDocuments tree))
    fun _ => none
  let ((files, bundled), _) ← step r "Writing output" (writeOutput logger c documents)
    fun (files, _) => some ("Wrote " ++ toString files.length ++ " files")
  say (Reporter.finish
    ("Generated client and router for " ++ toString tree.endpointCount ++ " endpoints"))
  return ⟨tree.endpointCount, files, bundled⟩

def generateFrom (c : Config) : Action Summary := generate { verbose := c.isVerbose } c

end Action

end TypedRoutes
