import TypedRoutes.Config.Json
import TypedRoutes.Config.Validation
import TypedRoutes.Manifest

/-! # Settings in files

Settings have a file of their own, or a section in the manifest of a package.
-/

namespace TypedRoutes.Config
open TypedRoutes.Json TypedRoutes.Text

/-- The section of a manifest that holds settings. -/
def sectionKey : String := "rpcTypegen"

def fileName : String := "rpc-typegen.json"

section
variable (files : FileTree) (directory : Location)

/-! ## Loading -/

def load (path : String) : Except ConfigFault Config := do
  let text ← (files.readText directory path).mapError ConfigFault.file
  let c ← ofText text
  c.validate files directory
  return c

def loadJson (path : String) : Except ConfigFault Value := do
  let text ← (files.readText directory path).mapError ConfigFault.file
  (parse text).mapError fun e => .json e.message

def loadSection (path : String) : Except ConfigFault (Option Config) := do
  match (← loadJson files directory path).field? sectionKey with
  | some v =>
    let c ← ofJson v
    c.validate files directory
    return some c
  | none => return none

def pathOf (l : Location) : String := "/" ++ join "/" l

/-- The settings that a run begins with: those of the file asked for, those of the settings file in
the working directory, those in the nearest manifest, or else the defaults. -/
def loadBase : Option String → Except ConfigFault Config
  | some path => load files directory path
  | none =>
    if files.isFile directory fileName then load files directory fileName
    else
      match Manifest.nearest files directory (pathOf directory) with
      | .ok (some manifest) => return (← loadSection files directory manifest.path).getD {}
      | _ => return {}

/-! ## Saving -/

def store (path text : String) : Except ConfigFault FileTree :=
  (files.write directory path (.text text)).mapError ConfigFault.file

def save (path : String) (c : Config) : Except ConfigFault FileTree :=
  store files directory path c.toJson.pretty

/-- Puts the settings into a manifest, in place of those it has; all else in it is kept. -/
def saveSection (path : String) (c : Config) : Except ConfigFault FileTree := do
  refuse (!files.present directory path) ("package.json not found at " ++ path)
  match ← loadJson files directory path with
  | .object fields =>
    let manifest := Value.object (Value.insertField sectionKey c.toJson.sorted fields)
    store files directory path manifest.pretty
  | _ => .error (.invalid (path ++ " does not contain a JSON object"))

/-- Writes first settings to a file or, if it is a manifest, into it; settings that are there are
replaced only by force. -/
def saveInitial (path : String) (force : Bool) (c : Config) : Except Fault FileTree := do
  if Path.fileName? path = some Manifest.fileName then
    let text ← (files.readText directory path).mapError Fault.file
    if containsText ("\"" ++ sectionKey ++ "\"") text && !force then
      throw (.config (.invalid (path ++ " already has a " ++ sectionKey ++
        " section. Use --force to overwrite")))
    (saveSection files directory path c).mapError Fault.config
  else
    if files.present directory path && !force then
      throw (.config (.invalid (path ++ " already exists. Use --force to overwrite")))
    (save files directory path c).mapError Fault.config

end

end TypedRoutes.Config
