import TypedRoutes.Bundle
import TypedRoutes.Console.Logger
import TypedRoutes.FileTree

/-! # Runs and what they change

A run takes place in a directory, where there are programs; it changes files and says something.
Both stay as they are when it fails.
-/

namespace TypedRoutes
open TypedRoutes.Console

structure Site where
  directory : Location
  programs : Programs

structure Session where
  files : FileTree
  said : List Line := []
  deriving Repr

abbrev Action := ReaderT Site (ExceptT Fault (StateM Session))

namespace Action

def say (lines : List Line) : Action Unit := modify fun s => { s with said := s.said ++ lines }

def ofExcept {α : Type} : Except Fault α → Action α
  | .ok a => pure a
  | .error e => throw e

def inspect {α : Type} (f : FileTree → Location → Except Fault α) : Action α := do
  ofExcept (f (← get).files (← read).directory)

/-- Replaces the files by what comes of them, unless that fails. -/
def change (f : FileTree → Location → Except Fault FileTree) : Action Unit := do
  let files ← inspect f
  modify fun s => { s with files }

end Action

end TypedRoutes
