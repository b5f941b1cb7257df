import TypedRoutes.CommandLine.Command
import TypedRoutes.Console.Usage
import TypedRoutes.Generation

/-! # Running commands -/

namespace TypedRoutes.CommandLine
open TypedRoutes.Console

/-- The settings that a command generates with; first settings are also written to their file. -/
def settle : Command → Action Config
  | .generate options => do
    let base ← Action.inspect fun files directory =>
      (Config.loadBase files directory options.config).mapError Fault.config
    return base.merge options.toConfig
  | .init options => do
    let c := options.toConfig
    Action.inspect fun files directory => (c.validate files directory).mapError Fault.config
    Action.change fun files directory =>
      Config.saveInitial files directory options.output options.force c
    Action.say [⟨.output, "✓ Wrote configuration to " ++ options.output⟩]
    return c

def run (command : Command) : Action Unit := do
  let c ← settle command
  let summary ← Action.generateFrom c
  if summary.endpointCount > 0 then Action.say (usage c.clientPath c.routerPath c.clientName)

end TypedRoutes.CommandLine
