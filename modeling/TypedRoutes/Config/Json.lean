import TypedRoutes.Config.Basic
import TypedRoutes.Json.Decoder

/-! # Settings as JSON -/

namespace TypedRoutes
open TypedRoutes.Json TypedRoutes.Render

/-! ## Encoding -/

def BundleConfig.toJson (b : BundleConfig) : Value :=
  .object [("outDir", .string b.outDir), ("esbuild", .string b.esbuild)]

def Config.toJson (c : Config) : Value :=
  .object
    [("entryDir", .string c.entryDir),
     ("endpointPathPrefix", .string c.endpointPathPrefix),
     ("routerPath", .string c.routerPath),
     ("clientOutDir", .string c.clientOutDir),
     ("clientName", .string c.clientName),
     ("clientTemplate", Value.ofOption .string c.clientTemplate),
     ("serverTemplate", Value.ofOption .string c.serverTemplate),
     ("routeStyle", .string c.routeStyle.name),
     ("indent", .string c.indent),
     ("importsBase", Value.ofOption .string c.importsBase),
     ("allowParameterless", Value.ofOption .bool c.allowParameterless),
     ("excludePatterns",
       Value.ofOption (fun patterns => .array (patterns.map .string)) c.excludePatterns),
     ("emitHeader", Value.ofOption .bool c.emitHeader),
     ("verbose", Value.ofOption .bool c.verbose),
     ("bundle", Value.ofOption BundleConfig.toJson c.bundle)]

/-! ## Decoding -/

namespace Config
open Decoder (field)

def bundleDecoder : Decoder BundleConfig :=
  .record "struct BundleConfig"
    [field "outDir" .string fun a b => { b with outDir := a },
     field "esbuild" .string fun a b => { b with esbuild := a }]
    {}

def routeStyleDecoder : Decoder RouteStyle :=
  .variant [("table", .table), ("register", .register)]

/-- Settings that are not given have their defaults; whether to be verbose is then left open. -/
def decoder : Decoder Config :=
  .record "struct GenerateConfig"
    [field "entryDir" .string fun a c => { c with entryDir := a },
     field "endpointPathPrefix" .string fun a c => { c with endpointPathPrefix := a },
     field "routerPath" .string fun a c => { c with routerPath := a },
     field "clientOutDir" .string fun a c => { c with clientOutDir := a },
     field "clientName" .string fun a c => { c with clientName := a },
     field "clientTemplate" (.optional .string) fun a c => { c with clientTemplate := a },
     field "serverTemplate" (.optional .string) fun a c => { c with serverTemplate := a },
     field "routeStyle" routeStyleDecoder fun a c => { c with routeStyle := a },
     field "indent" .string fun a c => { c with indent := a },
     field "importsBase" (.optional .string) fun a c => { c with importsBase := a },
     field "allowParameterless" (.optional .boolean) fun a c => { c with allowParameterless := a },
     field "excludePatterns" (.optional (.list .string)) fun a c =>
       { c with excludePatterns := a },
     field "emitHeader" (.optional .boolean) fun a c => { c with emitHeader := a },
     field "verbose" (.optional .boolean) fun a c => { c with verbose := a },
     field "bundle" (.optional bundleDecoder) fun a c => { c with bundle := a }]
    { verbose := none }

def ofText (text : String) : Except ConfigFault Config :=
  (decoder.ofText text).mapError fun e => .json e.message

def ofJson (v : Value) : Except ConfigFault Config :=
  (decoder.ofValue v).mapError fun e => .json e.message

end Config

end TypedRoutes
