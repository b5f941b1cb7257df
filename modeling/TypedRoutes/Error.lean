/-! # Failures

Every failure is a cause; its wording is in one place.
-/

namespace TypedRoutes

inductive FileFault where
  | notFound
  | notDirectory
  | isDirectory
  | alreadyExists
  | notText
  | other (message : String)
  deriving DecidableEq, Repr

def FileFault.message : FileFault → String
  | notFound => "No such file or directory (os error 2)"
  | notDirectory => "Not a directory (os error 20)"
  | isDirectory => "Is a directory (os error 21)"
  | alreadyExists => "File exists (os error 17)"
  | notText => "stream did not contain valid UTF-8"
  | other message => message

inductive ConfigFault where
  | file (fault : FileFault)
  | json (message : String)
  | routeStyle (text : String)
  | invalid (message : String)
  deriving DecidableEq, Repr

def ConfigFault.message : ConfigFault → String
  | file fault => "IO error: " ++ fault.message
  | json message => "JSON parsing error: " ++ message
  | routeStyle text => "Invalid route style: " ++ text ++ ". Use 'table' or 'register'"
  | invalid message => "Invalid configuration: " ++ message

inductive Fault where
  | file (fault : FileFault)
  | walk (message : String)
  | config (fault : ConfigFault)
  | entryDirectory (path : String)
  | parse (source message : String)
  | fragment (message : String)
  | missingMarker (template marker : String)
  | codeGeneration (message : String)
  | bundle (message : String)
  deriving DecidableEq, Repr

def Fault.message : Fault → String
  | file fault => fault.message
  | walk message => "Failed to walk handler directory: " ++ message
  | config fault => fault.message
  | entryDirectory path => "Invalid entry directory: " ++ path
  | parse source message => "Failed to parse " ++ source ++ ": " ++ message
  | fragment message => "Template error: " ++ message
  | missingMarker template marker =>
    "Template '" ++ template ++ "' is missing the required /* \x7b\x7b" ++ marker ++
      "\x7d\x7d */ marker"
  | codeGeneration message => "Code generation failed: " ++ message
  | bundle message => "Bundling failed: " ++ message

/-! ## Steps that may fail -/

theorem bind_eq_ok {ε α β : Type} {x : Except ε α} {f : α → Except ε β} {b : β}
    (h : x >>= f = .ok b) : ∃ a, x = .ok a ∧ f a = .ok b := by
  cases x with
  | error e => cases h
  | ok a => exact ⟨a, rfl, h⟩

end TypedRoutes
