import TypedRoutes.Error
import TypedRoutes.Path

/-! # A file system as a value

Nodes are kept by the names that lead to them from the root, which is always a directory.  A path
is followed name by name from the root or from a working directory; going through anything but a
directory fails.
-/

namespace TypedRoutes
open TypedRoutes.Text

/-- What a file holds; bytes only where they are no text. -/
inductive Content where
  | text (s : String)
  | bytes (values : List UInt8)
  deriving DecidableEq, Repr

def Content.ofBytes (values : List UInt8) : Content :=
  match String.fromUTF8? ⟨values.toArray⟩ with
  | some s => .text s
  | none => .bytes values

def Content.text? : Content → Option String
  | text s => some s
  | bytes _ => none

inductive Node where
  | file (content : Content)
  | directory
  deriving DecidableEq, Repr

/-- Where a node stands: the names that lead to it from the root. -/
abbrev Location := List String

structure FileTree where
  nodes : List (Location × Node) := []
  deriving Repr

namespace FileTree

def node? (t : FileTree) (l : Location) : Option Node :=
  if l = [] then some .directory else t.nodes.lookup l

def setNode (t : FileTree) (l : Location) (n : Node) : FileTree :=
  ⟨(l, n) :: t.nodes.filter (·.1 ≠ l)⟩

def removeNode (t : FileTree) (l : Location) : FileTree :=
  ⟨t.nodes.filter fun (k, _) => !l.isPrefixOf k⟩

/-! ## Following paths -/

def follow (t : FileTree) (l : Location) : List String → Except FileFault Location
  | [] => .ok l
  | piece :: pieces =>
    match t.node? l with
    | none => .error .notFound
    | some (.file _) => .error .notDirectory
    | some .directory =>
      if piece = "" || piece = "." then t.follow l pieces
      else if piece = ".." then t.follow l.dropLast pieces
      else
        match t.node? (l ++ [piece]) with
        | none => .error .notFound
        | some _ => t.follow (l ++ [piece]) pieces

def startOf (directory : Location) (path : String) : Location × List String :=
  (if Path.isAbsolute path then [] else directory, splitOn '/' path)

def find (t : FileTree) (directory : Location) (path : String) :
    Except FileFault (Location × Node) := do
  if path = "" then throw .notFound
  let (start, pieces) := startOf directory path
  let l ← t.follow start pieces
  match t.node? l with
  | some n => return (l, n)
  | none => throw .notFound

def isFile (t : FileTree) (directory : Location) (path : String) : Bool :=
  match t.find directory path with
  | .ok (_, .file _) => true
  | _ => false

def isDirectory (t : FileTree) (directory : Location) (path : String) : Bool :=
  match t.find directory path with
  | .ok (_, .directory) => true
  | _ => false

def present (t : FileTree) (directory : Location) (path : String) : Bool :=
  (t.find directory path).toOption.isSome

def read (t : FileTree) (directory : Location) (path : String) : Except FileFault Content := do
  match ← t.find directory path with
  | (_, .file content) => return content
  | (_, .directory) => throw .isDirectory

def readText (t : FileTree) (directory : Location) (path : String) :
    Except FileFault String := do
  match ← t.read directory path with
  | .text s => return s
  | .bytes _ => throw .notText

/-! ## Changing the tree -/

/-- The pieces of a path up to its last name, that name, and whether slashes follow it. -/
def splitLast (pieces : List String) : List String × String × Bool :=
  let kept := dropEndWhile (· == "") pieces
  (kept.dropLast, kept.getLast?.getD "", kept.length != pieces.length)

def place (t : FileTree) (directory : Location) (path : String) :
    Except FileFault (Location × String × Bool) := do
  if path = "" then throw .notFound
  let (start, pieces) := startOf directory path
  let (above, last, slashed) := splitLast pieces
  let l ← t.follow start above
  match t.node? l with
  | none => throw .notFound
  | some (.file _) => throw .notDirectory
  | some .directory => return (l, last, slashed)

/-- A name that stands for a directory whatever the tree holds. -/
def isDirectoryName (name : String) : Bool := name = "" || name = "." || name = ".."

def write (t : FileTree) (directory : Location) (path : String) (content : Content) :
    Except FileFault FileTree := do
  let (above, last, slashed) ← t.place directory path
  if slashed || isDirectoryName last then throw .isDirectory
  match t.node? (above ++ [last]) with
  | some .directory => throw .isDirectory
  | _ => return t.setNode (above ++ [last]) (.file content)

def makeDirectory (t : FileTree) (directory : Location) (path : String) :
    Except FileFault FileTree := do
  let (above, last, _) ← t.place directory path
  if isDirectoryName last then throw .alreadyExists
  match t.node? (above ++ [last]) with
  | some _ => throw .alreadyExists
  | none => return t.setNode (above ++ [last]) .directory

/-- Makes the first of several paths a directory, each lying in the next; a directory made on the
way stays even if a later one cannot be made. -/
def makeChain (t : FileTree) (directory : Location) : List String → Except FileFault Unit × FileTree
  | [] => (.error (.other "failed to create whole tree"), t)
  | path :: above =>
    if path = "" then (.ok (), t)
    else
      match t.makeDirectory directory path with
      | .ok t => (.ok (), t)
      | .error .notFound =>
        match t.makeChain directory above with
        | (.error e, t) => (.error e, t)
        | (.ok (), t) =>
          match t.makeDirectory directory path with
          | .ok t => (.ok (), t)
          | .error e => (if t.isDirectory directory path then .ok () else .error e, t)
      | .error e => (if t.isDirectory directory path then .ok () else .error e, t)

def makeDirectories (t : FileTree) (directory : Location) (path : String) :
    Except FileFault Unit × FileTree :=
  t.makeChain directory (Path.ancestors path)

def remove (t : FileTree) (directory : Location) (path : String) : Bool × FileTree :=
  match t.find directory path with
  | .ok (l, _) => if l = [] then (false, t) else (true, t.removeNode l)
  | .error _ => (false, t)

/-! ## Listings -/

def namesIn (t : FileTree) (l : Location) : List String :=
  let names := t.nodes.filterMap fun (k, _) =>
    if k.dropLast = l then k.getLast? else none
  names.mergeSort fun a b => decide (a ≤ b)

end FileTree

inductive Entry where
  | file (name : String)
  | directory (name : String) (entries : List Entry)
  deriving Repr

namespace FileTree

def entriesTo (t : FileTree) (l : Location) : Nat → List Entry
  | 0 => []
  | depth + 1 =>
    (t.namesIn l).map fun name =>
      match t.node? (l ++ [name]) with
      | some .directory => .directory name (t.entriesTo (l ++ [name]) depth)
      | _ => .file name

/-- The entries of a directory; no location is longer than the tree's longest. -/
def entries (t : FileTree) (l : Location) : List Entry :=
  t.entriesTo l (t.nodes.foldl (fun n (k, _) => max n k.length) 0 + 1)

end FileTree

end TypedRoutes
