import TypedRoutes.Config.Basic
import TypedRoutes.FileTree
import TypedRoutes.Route.Exclusion

/-! # Settings that can be used -/

namespace TypedRoutes.Config
open TypedRoutes.Text TypedRoutes.Route

/-- A name of ASCII letters, digits, underscores and dollar signs that no digit begins. -/
def isIdentifier (name : String) : Bool :=
  match name.toList with
  | [] => false
  | c :: cs =>
    (c.isAlpha || c == '_' || c == '$') && cs.all fun d => d.isAlphanum || d == '_' || d == '$'

def isIndent (text : String) : Bool :=
  !text.isEmpty && text.toList.all fun c => c == ' ' || c == '\t'

def refuse (condition : Bool) (message : String) : Except ConfigFault Unit :=
  if condition then .error (.invalid message) else .ok ()

def requireFile (files : FileTree) (directory : Location) : Option String → Except ConfigFault Unit
  | some path =>
    refuse (!files.isFile directory path) ("Template file does not exist: " ++ path)
  | none => .ok ()

/-- Refuses settings that cannot be used; of several reasons the first counts. -/
def validate (files : FileTree) (directory : Location) (c : Config) : Except ConfigFault Unit := do
  refuse (isBlankText c.entryDir) "entryDir must not be empty"
  refuse (isBlankText c.routerPath) "routerPath must not be empty"
  refuse (!isIdentifier c.clientName)
    ("clientName '" ++ c.clientName ++ "' is not a valid identifier")
  refuse (!isIndent c.indent) "indent must consist of spaces or tabs"
  requireFile files directory c.clientTemplate
  requireFile files directory c.serverTemplate
  let _ ← Exclusion.ofTexts (c.excludePatterns.getD [])
  match c.bundle with
  | some bundle =>
    refuse (isBlankText bundle.esbuild) "bundle.esbuild must name an executable"
  | none => return

end TypedRoutes.Config
