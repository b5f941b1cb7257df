/-! # Messages of a run

Messages have a level, which decides whether they are said, where, and with which sign.
-/

namespace TypedRoutes.Console

inductive Level | error | warning | info | debug | verbose deriving DecidableEq, Repr

inductive Stream | output | errors deriving DecidableEq, Repr

namespace Level

def name : Level → String
  | error => "ERROR"
  | warning => "WARN"
  | info => "INFO"
  | debug => "DEBUG"
  | verbose => "VERBOSE"

def sign : Level → String
  | error => "❌ "
  | warning => "⚠️ "
  | info => ""
  | debug => "🔍 "
  | verbose => "💬 "

def stream : Level → Stream
  | error | warning => .errors
  | info | debug | verbose => .output

end Level

structure Line where
  stream : Stream
  text : String
  deriving DecidableEq, Repr

def shown (stream : Stream) (said : List Line) : String :=
  String.join ((said.filter (·.stream = stream)).map (·.text ++ "\n"))

structure Logger where
  verbose : Bool := false
  debug : Bool := false
  quiet : Bool := false
  deriving DecidableEq, Repr

namespace Logger

/-- A logger that says nothing but errors. -/
def silent : Logger := { quiet := true }

def admits (l : Logger) : Level → Bool
  | .error => true
  | .warning | .info => !l.quiet
  | .debug => !l.quiet && (l.debug || l.verbose)
  | .verbose => !l.quiet && l.verbose

def log (l : Logger) (level : Level) (message : String) : List Line :=
  if l.admits level then [⟨level.stream, level.sign ++ message⟩] else []

end Logger

end TypedRoutes.Console
