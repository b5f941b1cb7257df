import TypedRoutes.FileTree
import TypedRoutes.Naming.Rename
import TypedRoutes.Naming.TypeName
import TypedRoutes.Route.Analysis
import TypedRoutes.Script.Module

/-! # What a module says about its default export

The facts of a module are its default export with the types of its signature, and the text of each
type declaration within reach: its own and those it imports from modules beside it.
-/

namespace TypedRoutes.Script
open TypedRoutes.Text TypedRoutes.Naming TypedRoutes.Route

/-- Declaration texts by name; of several with one name the first counts. -/
abbrev Declarations := List (String × String)

structure ParsedModule where
  text : List Char
  items : List Item

namespace ParsedModule

def textOf (m : ParsedModule) (span : Span) : String := String.ofList (span.slice m.text)

/-- The types the module declares itself; a later declaration of a name comes before an earlier
one. -/
def ownDeclarations (m : ParsedModule) : Declarations :=
  (m.items.filterMap fun
    | .typeDeclaration name span => some (name, m.textOf span)
    | _ => none).reverse

/-- The function declared under a name: the one with a body, or else the first. -/
def localFunction? (m : ParsedModule) (name : String) : Option Signature :=
  let found := m.items.filterMap fun
    | .function declared signature => if declared = name then some signature else none
    | _ => none
  (found.find? (·.hasBody)).or found.head?

end ParsedModule

def Parameter.takesArgument (p : Parameter) : Bool :=
  p.isRest || p.hasDefault || p.binding != .identifier "this"

def Signature.handlerParameters (s : Signature) : List Parameter :=
  s.parameters.filter (·.takesArgument)

/-- The type that a function promises: the only argument of the type it returns. -/
def Signature.promisedType? (s : Signature) : Option TypeNode :=
  match s.returns with
  | some (.reference _ _ (some [argument])) => some argument
  | _ => none

/-- The default export of a module and the signature it has, if it is a named function. -/
def findDefaultExport (m : ParsedModule) (file : String) :
    Option (DefaultExport × Option Signature) :=
  let functionExport (name : String) (s : Signature) : DefaultExport × Option Signature :=
    (.function ⟨file, some name, s.handlerParameters.length⟩, some s)
  m.items.findSome? fun
    | .defaultFunction (some name) s => some (functionExport name s)
    | .defaultFunction none _ => some (.anonymousFunction, none)
    | .defaultClass => some (.classDeclaration, none)
    | .defaultExpression .arrow => some (.arrowFunction, none)
    | .defaultExpression (.identifier name) =>
      match m.localFunction? name with
      | some s => some (functionExport name s)
      | none => some (.expression, none)
    | .defaultExpression _ => some (.expression, none)
    | .exportNames names => if names.contains "default" then some (.reExport, none) else none
    | _ => none

/-! ## Reading modules from files -/

def nameEnding (name : String) : String :=
  let reversed := name.toList.reverse
  let ending := reversed.takeWhile (· != '.')
  if ending.length = reversed.length then "" else String.ofList ending.reverse

/-- The notation of a file, by the ending of its name in any case. -/
def Dialect.ofName (name : String) : Dialect :=
  let ending := lowerAscii (nameEnding name)
  { typed := ["ts", "mts", "cts", "tsx"].contains ending,
    elements := ["tsx", "jsx"].contains ending }

def dropByteOrderMark : List Char → List Char
  | '\ufeff' :: cs => cs
  | cs => cs

def loadModule (files : FileTree) (directory : Location) (file : String) :
    Except Fault ParsedModule := do
  let content ← (files.readText directory file).mapError Fault.file
  let (location, _) ← (files.find directory file).mapError Fault.file
  let text := dropByteOrderMark content.toList
  match readModule (Dialect.ofName (location.getLast?.getD "")) text with
  | some items => return { text, items }
  | none => throw (.parse file "the module is not well formed")

/-- Endings that an import may leave out. -/
def importEndings : List String := [".ts", ".tsx", ".mts", ".d.ts", "/index.ts"]

def resolveImport (files : FileTree) (directory : Location) (importer specifier : String) :
    Option String :=
  let withoutScript :=
    if endsWith ".js" specifier then [String.ofList (specifier.toList.dropLast.dropLast.dropLast) ++
      ".ts"]
    else []
  let candidates := specifier :: withoutScript ++ importEndings.map (specifier ++ ·)
  (candidates.map (Path.join importer)).find? (files.isFile directory)

def specifierDeclarations (exported : Declarations) : ImportSpecifier → Declarations
  | .named imported localName =>
    match exported.lookup imported with
    | some text => [(localName, renameDeclaredType text imported localName)]
    | none => []
  | .whole _ => exported
  | .default _ => []

/-- The declarations that an item imports from a module beside this one; a module that cannot be
found or read gives none. -/
def importedDeclarations (files : FileTree) (directory : Location) (importer : String) :
    Item → Declarations
  | .importFrom source specifiers =>
    if beginsWith "." source then
      match resolveImport files directory importer source with
      | none => []
      | some target =>
        match loadModule files directory target with
        | .ok m => specifiers.flatMap (specifierDeclarations m.ownDeclarations)
        | .error _ => []
    else []
  | _ => []

/-! ## Facts -/

structure Facts where
  defaultExport : Option DefaultExport
  parameters : List (Option ResolvedType)
  returnArgument : Option ResolvedType
  declarations : Declarations
  deriving DecidableEq, Repr

/-- The type of an annotation: a plain reference is known by its last name, unless only the
standard library has it. -/
def resolveType (m : ParsedModule) (file : String) (declarations : Declarations)
    (type : TypeNode) : ResolvedType :=
  let text := m.textOf type.span
  match type with
  | .reference _ path none =>
    let name := path.getLast?.getD ""
    if isGlobalType name && (declarations.lookup name).isNone then ⟨text, none⟩
    else ⟨text, some ⟨file, name⟩⟩
  | _ => ⟨text, none⟩

def Facts.collect (files : FileTree) (directory : Location) (file : String) :
    Except Fault Facts := do
  let m ← loadModule files directory file
  let importer := (Path.parent? file).getD "."
  let declarations := m.ownDeclarations ++
    m.items.flatMap (importedDeclarations files directory importer)
  let resolve := resolveType m file declarations
  match findDefaultExport m file with
  | none => return { defaultExport := none, parameters := [], returnArgument := none, declarations }
  | some (found, signature) =>
    return {
      defaultExport := some found
      parameters := (signature.map fun s =>
        s.handlerParameters.map fun p => p.annotation.map resolve).getD []
      returnArgument := (signature.bind (·.promisedType?)).map resolve
      declarations }

/-! ## The analyzer -/

/-- Facts of files, by the components of their paths. -/
structure Analyzer where
  cache : List (List Path.Component × Facts) := []
  deriving Repr

namespace Analyzer

def factsOf (a : Analyzer) (file : String) : Option Facts := a.cache.lookup (Path.components file)

def keep (a : Analyzer) (file : String) (facts : Facts) : Analyzer :=
  ⟨(Path.components file, facts) :: a.cache.filter (·.1 != Path.components file)⟩

def release (file : String) (a : Analyzer) : Analyzer :=
  ⟨a.cache.filter (·.1 != Path.components file)⟩

def exportedDefault (files : FileTree) (directory : Location) (file : String) (a : Analyzer) :
    Except Fault (Option DefaultExport) × Analyzer :=
  match Facts.collect files directory file with
  | .ok facts => (.ok facts.defaultExport, a.keep file facts)
  | .error e => (.error e, a)

def parameterType (f : FunctionRef) (index : Nat) (a : Analyzer) : Option ResolvedType := do
  (← (← a.factsOf f.file).parameters[index]?)

def returnTypeArgument (f : FunctionRef) (a : Analyzer) : Option ResolvedType := do
  (← a.factsOf f.file).returnArgument

def declarationText (symbol : SymbolRef) (a : Analyzer) : Option String := do
  (← a.factsOf symbol.file).declarations.lookup symbol.name

def analysis (files : FileTree) (directory : Location) : Analysis Analyzer where
  exportedDefault := exportedDefault files directory
  parameterType := parameterType
  returnTypeArgument := returnTypeArgument
  declarationText := declarationText
  release := release

end Analyzer

end TypedRoutes.Script
