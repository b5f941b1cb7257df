import TypedRoutes.Text.Basic

/-! # Paths

A path is a text; what it means is the list of its components.  Empty pieces between slashes mean
nothing, and a dot means something only at the head of a relative path.
-/

namespace TypedRoutes.Path
open TypedRoutes.Text

inductive Component where
  | root
  | current
  | parent
  | named (name : String)
  deriving DecidableEq, Repr

def Component.text : Component → String
  | root => "/"
  | current => "."
  | parent => ".."
  | named name => name

def isAbsolute (path : String) : Bool := beginsWith "/" path

def component? (piece : String) : Option Component :=
  if piece = "" || piece = "." then none
  else if piece = ".." then some .parent
  else some (.named piece)

def components (path : String) : List Component :=
  let pieces := splitOn '/' path
  let head : List Component :=
    if isAbsolute path then [.root] else if pieces.head? = some "." then [.current] else []
  head ++ pieces.filterMap component?

/-- A path seen from a directory; an absolute path is itself. -/
def join (directory path : String) : String :=
  if isAbsolute path || directory = "" then path
  else if endsWith "/" directory then directory ++ path
  else directory ++ "/" ++ path

/-- Drops what means nothing at the end of a path, given in reverse: slashes, and dots after a
slash. -/
def dropEmptyEnd : List Char → List Char
  | '/' :: cs => if cs.isEmpty then ['/'] else dropEmptyEnd cs
  | '.' :: '/' :: cs => if cs.isEmpty then ['/'] else dropEmptyEnd cs
  | cs => cs

/-- The path without its last component; there is none for a root and for the empty path. -/
def parent? (path : String) : Option String :=
  match (components path).getLast? with
  | none | some .root => none
  | some _ =>
    let reversed := dropEmptyEnd path.toList.reverse
    some (String.ofList (dropEmptyEnd (reversed.dropWhile (· != '/'))).reverse)

/-- A path, its parent, the parent of that, and so on; at most as many as it has characters. -/
def ancestorsUpTo : Nat → String → List String
  | 0, path => [path]
  | n + 1, path =>
    match parent? path with
    | some up => path :: ancestorsUpTo n up
    | none => [path]

def ancestors (path : String) : List String := ancestorsUpTo (path.length + 1) path

def fileName? (path : String) : Option String :=
  match (components path).getLast? with
  | some (.named name) => some name
  | _ => none

/-- A file name cut at its last dot; a dot at the very beginning does not count. -/
def splitExtension (name : String) : String × Option String :=
  let reversed := name.toList.reverse
  let extension := reversed.takeWhile (· != '.')
  match reversed.drop extension.length with
  | '.' :: stem =>
    if stem.isEmpty then (name, none)
    else (String.ofList stem.reverse, some (String.ofList extension.reverse))
  | _ => (name, none)

def extension? (path : String) : Option String := do
  (splitExtension (← fileName? path)).2

def fileStem? (path : String) : Option String := do
  return (splitExtension (← fileName? path)).1

/-! ## Lexical paths -/

/-- One step along a path whose components so far are given, the last first: a parent takes the
last name back, and the root has no parent. -/
def step (stack : List Component) : Component → List Component
  | .current => stack
  | .parent =>
    match stack with
    | .named _ :: rest => rest
    | stack => stack
  | .root => [.root]
  | .named name => .named name :: stack

/-- The components of a path without dots, as seen from a base directory. -/
def normalize (base path : String) : List Component :=
  ((components (join base path)).foldl step []).reverse

def commonLength {α : Type} [DecidableEq α] : List α → List α → Nat
  | a :: as, b :: bs => if a = b then commonLength as bs + 1 else 0
  | _, _ => 0

/-- The text that leads from one directory to another, written as a module specifier. -/
def relativeSpecifier (fromDirectory toDirectory : List Component) : String :=
  let shared := commonLength fromDirectory toDirectory
  let ups := List.replicate (fromDirectory.length - shared) ".."
  let parts := ups ++ (toDirectory.drop shared).map Component.text
  match parts with
  | [] => "."
  | ".." :: _ => Text.join "/" parts
  | _ => "./" ++ Text.join "/" parts

def relativeModulePath (fromDirectory toDirectory base : String) : String :=
  relativeSpecifier (normalize base fromDirectory) (normalize base toDirectory)

end TypedRoutes.Path
