import TypedRoutes.FileTree
import TypedRoutes.Json.Reader

/-! # Package manifests

The manifest of a project is the nearest one on the way from a directory to the root.
-/

namespace TypedRoutes
open TypedRoutes.Json

inductive ManifestFault where
  | file (fault : FileFault)
  | malformed (path message : String)
  deriving DecidableEq, Repr

def ManifestFault.message : ManifestFault → String
  | file fault => "IO error: " ++ fault.message
  | malformed path message => "Invalid package manifest " ++ path ++ ": " ++ message

structure Manifest where
  root : String
  path : String
  name : Option String
  /-- The names of all packages that the project depends on, each once. -/
  externals : List String
  deriving DecidableEq, Repr

namespace Manifest

def fileName : String := "package.json"

def dependencySections : List String := ["dependencies", "peerDependencies", "devDependencies"]

def sectionNames (v : Value) (key : String) : List String :=
  (((v.field? key).bind (·.fields?)).getD []).map (·.1)

def addNew (names : List String) : List String → List String
  | [] => names
  | n :: ns => addNew (if names.contains n then names else names ++ [n]) ns

def externalsOf (v : Value) : List String :=
  dependencySections.foldl (fun names key => addNew names (sectionNames v key)) []

def read (files : FileTree) (working : Location) (root : String) :
    Except ManifestFault Manifest := do
  let path := Path.join root fileName
  let text ← (files.readText working path).mapError ManifestFault.file
  let v ← (parse text).mapError fun e => ManifestFault.malformed path e.message
  return { root, path, name := (v.field? "name").bind (·.string?), externals := externalsOf v }

/-- The nearest directory upwards that has a manifest. -/
def nearestRoot? (files : FileTree) (working : Location) (start : String) : Option String :=
  (Path.ancestors start).find? fun d => files.isFile working (Path.join d fileName)

def nearest (files : FileTree) (working : Location) (start : String) :
    Except ManifestFault (Option Manifest) :=
  match nearestRoot? files working start with
  | some root => some <$> read files working root
  | none => .ok none

end Manifest

end TypedRoutes
