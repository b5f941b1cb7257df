import TypedRoutes.Render.Options
import TypedRoutes.Text.Basic

/-! # Options on a command line

Options are taken from left to right.  The value of an option may be attached to it or be the next
argument; it is looked at only when the option is completed, that is when the next one is
recognized or the arguments end.
-/

namespace TypedRoutes.CommandLine
open TypedRoutes.Text TypedRoutes.Render

inductive UsageFault where
  | help
  | version
  | missingCommand
  | unknownCommand
  | unknownArgument
  | missingValue
  | repeated
  | unneededValue
  | badValue
  deriving DecidableEq, Repr

inductive OptionKind where
  | flag
  | text
  /-- A text that is not empty. -/
  | path
  | routeStyle
  /-- Nothing; the option asks for help instead of anything else. -/
  | help
  | version
  deriving DecidableEq, Repr

def OptionKind.takesValue : OptionKind → Bool
  | text | path | routeStyle => true
  | flag | help | version => false

def OptionKind.check (k : OptionKind) (value : String) : Except UsageFault Unit :=
  match k with
  | path => if value.isEmpty then .error .missingValue else .ok ()
  | routeStyle =>
    match RouteStyle.ofText value with
    | .ok _ => .ok ()
    | .error _ => .error .badValue
  | _ => .ok ()

structure OptionSpec where
  long : String
  short : Option Char := none
  kind : OptionKind
  deriving DecidableEq, Repr

/-- Options with their values, by their long names; a flag has the empty value. -/
abbrev Given := List (String × String)

/-- What has been read, and the option whose value is missing or has not been looked at. -/
structure Reading where
  given : Given := []
  pending : Option (OptionSpec × Option String) := none
  deriving DecidableEq, Repr

namespace Reading

/-- Completes an option; none may be given twice. -/
def accept (r : Reading) (spec : OptionSpec) (value : String) : Except UsageFault Reading :=
  match spec.kind with
  | .help => .error .help
  | .version => .error .version
  | kind => do
    if (r.given.lookup spec.long).isSome then throw .repeated
    kind.check value
    return { r with given := r.given ++ [(spec.long, value)] }

def settle (r : Reading) : Except UsageFault Reading :=
  match r.pending with
  | none => .ok r
  | some (_, none) => .error .missingValue
  | some (spec, some value) => { r with pending := none }.accept spec value

/-- Goes on with an option that is recognized: one with a value that may be attached, or one
without. -/
def take (r : Reading) (spec : OptionSpec) (attached : Option String) :
    Except UsageFault Reading := do
  let r ← r.settle
  if spec.kind.takesValue then
    match attached with
    | some value => r.accept spec value
    | none => return { r with pending := some (spec, none) }
  else r.accept spec ""

end Reading

section
variable (specs : List OptionSpec)

def readLong (r : Reading) (body : List Char) : Except UsageFault Reading :=
  let name := body.takeWhile (· != '=')
  let attached : Option String :=
    match body.drop name.length with
    | [] => none
    | _ :: value => some (String.ofList value)
  match specs.find? (·.long = String.ofList name) with
  | none => .error .unknownArgument
  | some spec =>
    if attached.isSome && !spec.kind.takesValue then .error .unneededValue
    else r.take spec attached

/-- Reads a run of one-letter options; what follows one with a value is its value. -/
def readShort (r : Reading) : List Char → Except UsageFault Reading
  | [] => .ok r
  | c :: rest =>
    match specs.find? (·.short = some c) with
    | none => .error .unknownArgument
    | some spec =>
      if spec.kind.takesValue then
        match rest with
        | [] => r.take spec none
        | '=' :: value => r.take spec (some (String.ofList value))
        | value => r.take spec (some (String.ofList value))
      else do readShort (← r.take spec none) rest

inductive Form where
  | separator
  | long (body : List Char)
  | short (letters : List Char)
  | plain
  deriving DecidableEq, Repr

def Form.of (argument : String) : Form :=
  match argument.toList with
  | ['-', '-'] => .separator
  | '-' :: '-' :: body => .long body
  | '-' :: c :: letters => .short (c :: letters)
  | _ => .plain

def readOptions (r : Reading) : List String → Except UsageFault Reading
  | [] => r.settle
  | a :: rest =>
    match Form.of a with
    | .separator => if rest.isEmpty then r.settle else .error .unknownArgument
    | .long body => do readOptions (← readLong specs r body) rest
    | .short letters => do readOptions (← readShort specs r letters) rest
    | .plain =>
      match r.pending with
      | some (spec, none) => readOptions { r with pending := some (spec, some a) } rest
      | _ => .error .unknownArgument

end

end TypedRoutes.CommandLine
