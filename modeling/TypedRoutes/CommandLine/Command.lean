import TypedRoutes.CommandLine.Option
import TypedRoutes.Config.Storage

/-! # Commands -/

namespace TypedRoutes.CommandLine
open TypedRoutes.Render

/-- What a generation is asked for; what is not given is absent. -/
structure GenerateOptions where
  entry : Option String := none
  router : Option String := none
  clientOut : Option String := none
  name : Option String := none
  pathPrefix : Option String := none
  clientTemplate : Option String := none
  serverTemplate : Option String := none
  routeStyle : Option RouteStyle := none
  importsBase : Option String := none
  noParameterless : Bool := false
  bundle : Bool := false
  bundleOut : Option String := none
  verbose : Bool := false
  config : Option String := none
  deriving DecidableEq, Repr

structure InitOptions where
  entry : Option String := none
  router : Option String := none
  clientOut : Option String := none
  name : Option String := none
  pathPrefix : Option String := none
  output : String := Config.fileName
  verbose : Bool := false
  force : Bool := false
  deriving DecidableEq, Repr

inductive Command where
  | generate (options : GenerateOptions)
  | init (options : InitOptions)
  deriving DecidableEq, Repr

/-! ## Reading commands -/

def helpOption : OptionSpec := { long := "help", short := 'h', kind := .help }

def versionOption : OptionSpec := { long := "version", short := 'V', kind := .version }

def sharedSpecs : List OptionSpec :=
  [{ long := "entry", short := 'e', kind := .path },
   { long := "router", short := 'r', kind := .path },
   { long := "name", short := 'n', kind := .text },
   { long := "prefix", kind := .text },
   { long := "verbose", kind := .flag },
   helpOption]

def generateSpecs : List OptionSpec :=
  sharedSpecs ++
    [{ long := "client-out", short := 'o', kind := .path },
     { long := "client-template", kind := .path },
     { long := "server-template", kind := .path },
     { long := "route-style", kind := .routeStyle },
     { long := "imports-base", kind := .text },
     { long := "no-parameterless", kind := .flag },
     { long := "bundle", kind := .flag },
     { long := "bundle-out", kind := .path },
     { long := "config", short := 'c', kind := .path }]

def initSpecs : List OptionSpec :=
  sharedSpecs ++
    [{ long := "client-out", short := 'g', kind := .path },
     { long := "output", short := 'o', kind := .path },
     { long := "force", kind := .flag }]

def Given.has (g : Given) (name : String) : Bool := (g.lookup name).isSome

def GenerateOptions.ofGiven (g : Given) : GenerateOptions where
  entry := g.lookup "entry"
  router := g.lookup "router"
  clientOut := g.lookup "client-out"
  name := g.lookup "name"
  pathPrefix := g.lookup "prefix"
  clientTemplate := g.lookup "client-template"
  serverTemplate := g.lookup "server-template"
  routeStyle := (g.lookup "route-style").bind fun text => (RouteStyle.ofText text).toOption
  importsBase := g.lookup "imports-base"
  noParameterless := Given.has g "no-parameterless"
  bundle := Given.has g "bundle"
  bundleOut := g.lookup "bundle-out"
  verbose := Given.has g "verbose"
  config := g.lookup "config"

def InitOptions.ofGiven (g : Given) : InitOptions where
  entry := g.lookup "entry"
  router := g.lookup "router"
  clientOut := g.lookup "client-out"
  name := g.lookup "name"
  pathPrefix := g.lookup "prefix"
  output := (g.lookup "output").getD Config.fileName
  verbose := Given.has g "verbose"
  force := Given.has g "force"

def readGenerate (arguments : List String) : Except UsageFault Command := do
  return .generate (.ofGiven (← readOptions generateSpecs {} arguments).given)

def readInit (arguments : List String) : Except UsageFault Command := do
  return .init (.ofGiven (← readOptions initSpecs {} arguments).given)

def commandWords : List String := ["generate", "init", "help"]

/-- A command to be helped with may be named. -/
def readHelp : List String → UsageFault
  | [] => .help
  | [word] => if commandWords.contains word then .help else .unknownCommand
  | _ => .unknownCommand

def Command.ofArguments : List String → Except UsageFault Command
  | [] => .error .missingCommand
  | "generate" :: rest => readGenerate rest
  | "init" :: rest => readInit rest
  | "help" :: rest => .error (readHelp rest)
  | a :: rest =>
    match Form.of a with
    | .separator =>
      match rest with
      | [] => .error .missingCommand
      | word :: _ =>
        .error (if commandWords.contains word then .unknownArgument else .unknownCommand)
    | .long body => do
      let _ ← readLong [helpOption, versionOption] {} body
      Command.ofArguments rest
    | .short letters => do
      let _ ← readShort [helpOption, versionOption] {} letters
      Command.ofArguments rest
    | .plain => .error .unknownCommand

/-! ## Settings that commands ask for -/

def GenerateOptions.toConfig (o : GenerateOptions) : Config :=
  let standard : Config := {}
  { entryDir := o.entry.getD standard.entryDir
    endpointPathPrefix := o.pathPrefix.getD standard.endpointPathPrefix
    routerPath := o.router.getD standard.routerPath
    clientOutDir := o.clientOut.getD standard.clientOutDir
    clientName := o.name.getD standard.clientName
    clientTemplate := o.clientTemplate
    serverTemplate := o.serverTemplate
    routeStyle := o.routeStyle.getD standard.routeStyle
    importsBase := o.importsBase
    allowParameterless := if o.noParameterless then some false else none
    bundle :=
      if o.bundle then
        let plain : BundleConfig := {}
        some { outDir := o.bundleOut.getD plain.outDir }
      else none
    verbose := if o.verbose then some true else none }

def InitOptions.toConfig (o : InitOptions) : Config :=
  let standard : Config := {}
  { entryDir := o.entry.getD standard.entryDir
    endpointPathPrefix := o.pathPrefix.getD standard.endpointPathPrefix
    routerPath := o.router.getD standard.routerPath
    clientOutDir := o.clientOut.getD standard.clientOutDir
    clientName := o.name.getD standard.clientName
    verbose := some o.verbose }

def Command.toConfig : Command → Config
  | generate options => options.toConfig
  | init options => options.toConfig

end TypedRoutes.CommandLine
