import TypedRoutes.Naming.Identifier
import TypedRoutes.Naming.Registry
import TypedRoutes.Naming.Rename
import TypedRoutes.Render.Options
import TypedRoutes.Route.Tree
import TypedRoutes.Template.CodeWriter
import TypedRoutes.Template.Document
import TypedRoutes.Template.Fragment

/-! # Rendering the client

The types of a tree go into nested namespaces, one a directory, and the methods into nested
objects of the same shape.  Type names are unlike over the whole document, member names within one
scope.
-/

namespace TypedRoutes.Render
open TypedRoutes.Text TypedRoutes.Naming TypedRoutes.Route TypedRoutes.Template

def clientMarkers : List String := ["types", "functions"]

def typesNamespace : String := "types"

/-- Members that the built-in client has beside the rendered ones. -/
def clientMembers : List String := ["constructor", "options", "call"]

/-- What a walk over the tree has written so far, and the type names it has given away. -/
structure Parts where
  types : CodeWriter
  functions : CodeWriter
  registry : Registry := .empty
  deriving Repr

/-- Declares a type under a free name in the namespace that is open; gives the qualified name. -/
def declareType (info : TypeInfo) (namespaces : List String) (parts : Parts) : String × Parts :=
  let (name, registry) := parts.registry.claim info.name
  let declaration := exportedDeclaration (renameDeclaredType info.declaration info.name name)
  let reference := join "." (typesNamespace :: namespaces ++ [name])
  (reference,
    { parts with registry, types := parts.types.write (namespaces.length + 1) declaration })

def methodBindings (options : Options) (e : Endpoint) (member : String) (level : Nat)
    (bodyType : Option String) (returnType : String) : Bindings :=
  [("name", .string member),
   ("separator", .string (if level = 0 then " =" else ":")),
   ("terminator", .string (if level = 0 then ";" else ",")),
   ("indent", .string options.indent),
   ("path", .string (e.httpPath options.endpointPathPrefix)),
   ("body_type", match bodyType with
      | some b => .string b
      | none => .null),
   ("return_type", .string returnType)]

def renderEndpoint (options : Options) (namespaces : List String) (e : Endpoint)
    (member : String) (parts : Parts) : Except Fault Parts := do
  let (bodyType, parts) :=
    match e.body with
    | some body =>
      let (reference, parts) := declareType body namespaces parts
      (some reference, parts)
    | none => (none, parts)
  let (returnType, parts) := declareType e.returns namespaces parts
  let level := namespaces.length
  let method ← renderFragment methodFragment
    (methodBindings options e member level bodyType returnType)
  return { parts with functions := parts.functions.write level method }

/-- Writes the endpoints of one directory; the members of its scope are claimed in order. -/
def renderEndpoints (options : Options) (namespaces : List String) :
    List Endpoint → Registry → Parts → Except Fault (Registry × Parts)
  | [], members, parts => .ok (members, parts)
  | e :: es, members, parts => do
    let (member, members) := members.claim e.functionName
    let parts ← renderEndpoint options namespaces e member parts
    renderEndpoints options namespaces es members parts

def openScope (level : Nat) (identifier : String) (parts : Parts) : Parts :=
  { parts with
    types := parts.types.write (level + 1) ("export namespace " ++ identifier ++ " \x7b")
    functions := parts.functions.write level
      (identifier ++ (if level = 0 then " = \x7b" else ": \x7b")) }

def closeScope (level : Nat) (parts : Parts) : Parts :=
  { parts with
    functions := parts.functions.write level (if level = 0 then "\x7d;" else "\x7d,")
    types := parts.types.write (level + 1) "\x7d" }

def scopeMembers (level : Nat) : Registry :=
  if level = 0 then .reserving clientMembers else .empty

mutual

def renderNode (options : Options) (namespaces : List String) (parts : Parts) :
    Tree → Except Fault Parts
  | .node _ children endpoints => do
    let (members, parts) ← renderEndpoints options namespaces endpoints
      (scopeMembers namespaces.length) parts
    renderChildren options namespaces members parts children

/-- Writes the directories below one; those without endpoints are left out. -/
def renderChildren (options : Options) (namespaces : List String) (members : Registry)
    (parts : Parts) : List Tree → Except Fault Parts
  | [] => .ok parts
  | child :: rest => do
    if child.isEmpty then renderChildren options namespaces members parts rest
    else
      match child.name with
      | none => .error (.codeGeneration "only the root of a route tree may be unnamed")
      | some name =>
        let (identifier, members) := members.claim (toIdentifier name)
        let level := namespaces.length
        let parts ← renderNode options (namespaces ++ [identifier])
          (openScope level identifier parts) child
        renderChildren options namespaces members (closeScope level parts) rest

end

def renderParts (options : Options) (tree : Tree) : Except Fault Parts := do
  let parts : Parts := { types := ⟨options.indent, ""⟩, functions := ⟨options.indent, ""⟩ }
  if tree.isEmpty then return parts
  else
    let opened := { parts with
      types := parts.types.write 0 ("export namespace " ++ typesNamespace ++ " \x7b") }
    let filled ← renderNode options [] opened tree
    return { filled with types := filled.types.write 0 "\x7d" }

def fillClient (options : Options) (tree : Tree) (document : Document) :
    Except Fault Document := do
  document.require clientMarkers
  let parts ← renderParts options tree
  let document := document.append "types" parts.types.buffer
  let document :=
    if parts.functions.isEmpty then document
    else document.append "functions" parts.functions.buffer
  return document.append "clientName" options.clientName

end TypedRoutes.Render
