import TypedRoutes.Session

/-! # Writing documents -/

namespace TypedRoutes
open TypedRoutes.Console

def makeParents (files : FileTree) (directory : Location) (path : String) :
    Except FileFault Unit × FileTree :=
  match Path.parent? path with
  | none | some "" => (.ok (), files)
  | some above => files.makeDirectories directory above

/-- Writes a document in place of the file at a path; missing directories are made first, and stay
even if the document cannot be written. -/
def writeDocument (files : FileTree) (directory : Location) (path text : String) :
    Except Fault Unit × FileTree :=
  match makeParents files directory path with
  | (.error e, files) => (.error (.file e), files)
  | (.ok (), files) =>
    match files.write directory path (.text text) with
    | .error e => (.error (.file e), files)
    | .ok files => (.ok (), files)

structure Writer where
  files : FileTree
  written : List String := []
  deriving Repr

def Writer.write (w : Writer) (directory : Location) (path text : String) :
    Except Fault Unit × Writer :=
  match writeDocument w.files directory path text with
  | (.ok (), files) => (.ok (), ⟨files, w.written ++ [path]⟩)
  | (.error e, files) => (.error e, { w with files })

structure Destinations where
  client : String
  router : String
  deriving DecidableEq, Repr

namespace Action

def put (logger : Logger) (path text : String) : Action Unit := do
  let (result, files) := writeDocument (← get).files (← read).directory path text
  modify fun s => { s with files }
  ofExcept result
  say (logger.log .verbose ("Wrote " ++ path))

def bundle (logger : Logger) (bundler : Bundler) (d : Destinations) : Action Unit := do
  let targets := Bundler.targets d.client d.router
  say (targets.flatMap fun t =>
    logger.log .debug ("Bundling " ++ t.label ++ " into " ++ bundler.outDir))
  ofExcept (bundler.run (← read).programs targets)
  say (logger.log .verbose
    ("Bundled " ++ toString targets.length ++ " targets into " ++ bundler.outDir))

/-- Writes both documents and bundles them if asked to; gives the paths that were written. -/
def emit (logger : Logger) (bundler : Option Bundler) (client router : String)
    (d : Destinations) : Action (List String) := do
  put logger d.client client
  put logger d.router router
  match bundler with
  | some b => bundle logger b d
  | none => pure ()
  return [d.client, d.router]

end Action

end TypedRoutes
