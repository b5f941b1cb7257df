import TypedRoutes.Console.Logger
import TypedRoutes.FileTree
import TypedRoutes.Route.Analysis
import TypedRoutes.Route.Exclusion
import TypedRoutes.Route.Tree

/-! # From a directory to its tree of endpoints

Entries are taken in the order of their enumeration.  Each is left out, or is a directory that
becomes a child, or a module that may hold an endpoint; what is decided about it is noted.
-/

namespace TypedRoutes.Route
open TypedRoutes.Text TypedRoutes.Console

/-- What is decided about an entry; a path is seen from the working directory, a place from the
entry directory. -/
inductive Note where
  | excluded (place : String)
  | found (functionName place : String)
  | duplicate (path functionName : String)
  | notHandler (place : String)
  | failed (path : String) (fault : Fault)
  deriving DecidableEq, Repr

def Note.level : Note → Level
  | excluded _ | found _ _ => .verbose
  | duplicate _ _ => .warning
  | notHandler _ => .debug
  | failed _ _ => .error

def Note.message : Note → String
  | excluded place => "Excluded " ++ place
  | found functionName place => "Found handler " ++ functionName ++ " in " ++ place
  | duplicate path functionName =>
    "Skipping " ++ path ++ ": handler '" ++ functionName ++
      "' is already defined in this directory"
  | notHandler place => "Skipping " ++ place ++ ": not a handler module"
  | failed path fault => "Error processing file " ++ path ++ ": " ++ fault.message

def handlerExtensions : List String := ["ts", "tsx", "mts"]

/-- The name of a module that may hold a handler; one that only declares types does not. -/
def isHandlerSource (name : String) : Bool :=
  !endsWith ".d.ts" name && (Path.extension? name).any handlerExtensions.contains

/-- How a tree is built: what a module holds, given its path and the directories that lead to it,
and which places are left out. -/
structure Builder (σ : Type) where
  extract : String → List String → σ → Except Fault (Option Endpoint) × σ
  excludes : String → Bool

structure Gathered (σ : Type) where
  children : List Tree := []
  endpoints : List Endpoint := []
  notes : List Note := []
  state : σ

def Gathered.note {σ : Type} (g : Gathered σ) (n : Note) : Gathered σ :=
  { g with notes := g.notes ++ [n] }

namespace Builder
variable {σ : Type} (b : Builder σ)

/-- Where an entry stands, as seen from the entry directory. -/
def place (segments : List String) (name : String) : String := join "/" (segments ++ [name])

/-- Adds the endpoint that was found in a module, unless its directory has one of that name. -/
def addEndpoint (path place : String) (e : Endpoint) (g : Gathered σ) : Gathered σ :=
  if g.endpoints.any (·.functionName = e.functionName) then
    g.note (.duplicate path e.functionName)
  else { g with endpoints := g.endpoints ++ [e] }.note (.found e.functionName place)

def gatherModule (directory : String) (segments : List String) (name : String)
    (g : Gathered σ) : Gathered σ :=
  let path := Path.join directory name
  let (found, state) := b.extract path segments g.state
  let g := { g with state }
  match found with
  | .ok (some e) => addEndpoint path (place segments name) e g
  | .ok none => g.note (.notHandler (place segments name))
  | .error e => g.note (.failed path e)

mutual

def gatherEntry (directory : String) (segments : List String) (g : Gathered σ) :
    Entry → Gathered σ
  | .file name =>
    if b.excludes (place segments name) then g.note (.excluded (place segments name))
    else if isHandlerSource name then b.gatherModule directory segments name g
    else g
  | .directory name entries =>
    if b.excludes (place segments name) then g.note (.excluded (place segments name))
    else
      let inner := gatherEntries (Path.join directory name) (segments ++ [name])
        { notes := g.notes, state := g.state } entries
      { g with
        children := g.children ++ [.node (some name) inner.children inner.endpoints]
        notes := inner.notes
        state := inner.state }

def gatherEntries (directory : String) (segments : List String) (g : Gathered σ) :
    List Entry → Gathered σ
  | [] => g
  | e :: es => gatherEntries directory segments (gatherEntry directory segments g e) es

end

/-- The tree of given entries, with what was gathered on the way. -/
def ofEntries (directory : String) (segments : List String) (entries : List Entry) (state : σ) :
    Tree × Gathered σ :=
  let g := b.gatherEntries directory segments { state } entries
  (.node segments.getLast? g.children g.endpoints, g)

/-! ## Directories of a file system -/

/-- The entries below a directory; below a file there are none. -/
def entriesBelow (files : FileTree) (working : Location) (directory : String) :
    Except Fault (List Entry) :=
  match files.find working directory with
  | .ok (l, .directory) => .ok (files.entries l)
  | .ok (_, .file _) => .ok []
  | .error e =>
    .error (.walk ("IO error for operation on " ++ directory ++ ": " ++ e.message))

def buildFrom (files : FileTree) (working : Location) (root : String) (segments : List String)
    (state : σ) : Except Fault Tree × List Note × σ :=
  let directory := segments.foldl Path.join root
  match entriesBelow files working directory with
  | .error e => (.error e, [], state)
  | .ok entries =>
    let (tree, g) := b.ofEntries directory segments entries state
    (.ok tree, g.notes, g.state)

def build (files : FileTree) (working : Location) (root : String) (state : σ) :
    Except Fault Tree × List Note × σ :=
  if files.isDirectory working root then b.buildFrom files working root [] state
  else (.error (.entryDirectory root), [], state)

end Builder

end TypedRoutes.Route
