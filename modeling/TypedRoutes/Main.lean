import TypedRoutes.CommandLine.Help
import TypedRoutes.CommandLine.Run

/-! # The program

Reads the files below the working directory, runs the command on them, writes what has changed and
prints what was said.  Packages that are installed are not looked into.
-/

namespace TypedRoutes.CommandLine
open TypedRoutes.Console

/-- Adds what a directory entry stands for, with all below it. -/
partial def loadEntry (above : Location) (files : FileTree) (e : IO.FS.DirEntry) :
    IO FileTree := do
  let here := above ++ [e.fileName]
  match (← e.path.metadata).type with
  | .dir =>
    let children ← if e.fileName == "node_modules" then pure #[] else e.path.readDir
    children.foldlM (loadEntry here) (files.setNode here .directory)
  | .file => return files.setNode here (.file (.ofBytes (← IO.FS.readBinFile e.path).toList))
  | _ => return files

/-- Adds a directory and the manifest that may lie in it. -/
def loadAncestor (files : FileTree) (l : Location) : IO FileTree := do
  let files := files.setNode l .directory
  try
    let bytes ← IO.FS.readBinFile (Path.join (Config.pathOf l) Manifest.fileName)
    return files.setNode (l ++ [Manifest.fileName]) (.file (.ofBytes bytes.toList))
  catch _ => return files

def saveNode (before : FileTree) (l : Location) (node : Node) : IO Unit := do
  if before.node? l != some node then
    match node with
    | .directory => IO.FS.createDirAll (Config.pathOf l)
    | .file (.text s) => IO.FS.writeFile (Config.pathOf l) s
    | .file (.bytes values) => IO.FS.writeBinFile (Config.pathOf l) ⟨values.toArray⟩

def runHere (command : Command) : IO UInt32 := do
  let here ← IO.currentDir
  let directory : Location := (Text.splitOn '/' here.toString).filter (· != "")
  let ancestors := (List.range directory.length).map fun n => directory.take (n + 1)
  let above ← ancestors.foldlM loadAncestor {}
  let files ← (← here.readDir).foldlM (loadEntry directory) above
  let (result, session) := (((run command).run ⟨directory, basicPrograms⟩).run).run { files }
  for (l, node) in session.files.nodes.reverse do
    saveNode files l node
  for line in session.said do
    match line.stream with
    | .output => IO.println line.text
    | .errors => IO.eprintln line.text
  match result with
  | .ok () => return 0
  | .error e =>
    IO.eprintln ("Error: " ++ e.message)
    return 1

end TypedRoutes.CommandLine

def main (arguments : List String) : IO UInt32 := do
  match TypedRoutes.CommandLine.Command.ofArguments arguments with
  | .ok command => TypedRoutes.CommandLine.runHere command
  | .error fault =>
    IO.println fault.message
    return fault.exitCode
