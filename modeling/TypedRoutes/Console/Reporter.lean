import TypedRoutes.Console.Logger

/-! # Reporting the steps of a run

Steps are announced one by one to those who want to hear more; failures and the end are always
reported.
-/

namespace TypedRoutes.Console

structure Reporter where
  logger : Logger
  total : Nat
  /-- How many steps have been started. -/
  current : Nat := 0
  step : String := ""
  deriving DecidableEq, Repr

namespace Reporter

def announce (r : Reporter) (message : String) : List Line :=
  if r.logger.verbose then r.logger.log .info message else []

def start (r : Reporter) (step : String) : Reporter × List Line :=
  let r := { r with current := r.current + 1, step }
  (r, r.announce ("🚀 " ++ step ++ " (" ++ toString r.current ++ "/" ++ toString r.total ++ ")"))

def complete (r : Reporter) (message : Option String) : List Line :=
  r.announce ("✅ " ++ r.step ++ (match message with
    | some m => " - " ++ m
    | none => ""))

def fail (r : Reporter) (error : String) : List Line :=
  r.logger.log .error ("Failed " ++ r.step ++ ": " ++ error)

def finish (message : String) : List Line := [⟨.output, "✓ " ++ message⟩]

end Reporter

end TypedRoutes.Console
