import TypedRoutes.CommandLine.Command
import TypedRoutes.Template.Fragment

/-! # What a command line is answered with when it makes no command -/

namespace TypedRoutes.CommandLine
open TypedRoutes.Template

def OptionSpec.form (spec : OptionSpec) : String :=
  (match spec.short with
    | some c => "-" ++ String.singleton c ++ ", "
    | none => "    ") ++ "--" ++ spec.long ++ (if spec.kind.takesValue then " VALUE" else "")

def helpLines : List String :=
  ["Generates a typed client and a router from handler modules.",
   "",
   "Usage: " ++ generatorName ++ " generate|init [OPTIONS]",
   "",
   "Options of generate:"] ++ generateSpecs.map ("  " ++ ·.form) ++
  ["", "Options of init:"] ++ initSpecs.map ("  " ++ ·.form)

def UsageFault.message : UsageFault → String
  | help | missingCommand => "\n".intercalate helpLines
  | version => generatorName ++ " " ++ generatorVersion
  | unknownCommand => "error: unknown command"
  | unknownArgument => "error: unexpected argument"
  | missingValue => "error: an option needs a value"
  | repeated => "error: an option is given twice"
  | unneededValue => "error: an option takes no value"
  | badValue => "error: invalid value"

/-- The exit code: asking for help is no failure. -/
def UsageFault.exitCode : UsageFault → UInt32
  | help | version => 0
  | _ => 2

end TypedRoutes.CommandLine
