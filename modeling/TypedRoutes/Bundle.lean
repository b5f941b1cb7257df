import TypedRoutes.Error
import TypedRoutes.Text.Basic

/-! # Bundling

The client is bundled for browsers and the router for servers, each as two kinds of modules, by a
program that is run once for each.  All runs go on at the same time.
-/

namespace TypedRoutes
open TypedRoutes.Text

inductive Platform | browser | node deriving DecidableEq, Repr

def Platform.name : Platform → String
  | browser => "browser"
  | node => "node"

inductive ModuleFormat | esm | cjs deriving DecidableEq, Repr

def ModuleFormat.name : ModuleFormat → String
  | esm => "esm"
  | cjs => "cjs"

structure BuildTarget where
  entry : String
  platform : Platform
  format : ModuleFormat
  deriving DecidableEq, Repr

def BuildTarget.label (t : BuildTarget) : String :=
  t.entry ++ " (" ++ t.platform.name ++ ", " ++ t.format.name ++ ")"

inductive Outcome where
  | succeeded
  | failed (errors : String)
  | notStarted (reason : String)
  deriving DecidableEq, Repr

abbrev Programs := String → List String → Outcome

/-- The programs that are there on every system and do nothing but end. -/
def basicPrograms : Programs := fun program _ =>
  if program = "true" || program = "echo" then .succeeded
  else if program = "false" then .failed ""
  else .notStarted FileFault.notFound.message

structure Bundler where
  program : String
  outDir : String
  /-- Packages that are imported at run time and not made part of a bundle. -/
  externals : List String := []
  deriving DecidableEq, Repr

namespace Bundler

def targets (client router : String) : List BuildTarget :=
  [(client, .browser), (router, .node)].flatMap fun (entry, platform) =>
    [.esm, .cjs].map fun format => ⟨entry, platform, format⟩

def arguments (b : Bundler) (t : BuildTarget) : List String :=
  [t.entry, "--bundle", "--platform=" ++ t.platform.name, "--format=" ++ t.format.name,
    "--outdir=" ++ b.outDir] ++
  (if t.format = .cjs then ["--out-extension:.js=.cjs"] else []) ++
  b.externals.map ("--external:" ++ ·)

def failure? (b : Bundler) (t : BuildTarget) : Outcome → Option String
  | .succeeded => none
  | .failed errors => some (b.program ++ " failed for " ++ t.label ++ ": " ++ trim errors)
  | .notStarted reason =>
    some ("failed to run " ++ b.program ++ " for " ++ t.label ++ ": " ++ reason)

abbrev Build := BuildTarget × Outcome

/-- The verdict on programs, given in the order in which they end. -/
def verdict (b : Bundler) (ends : List Build) : Except Fault Unit :=
  match ends.findSome? fun (t, outcome) => b.failure? t outcome with
  | some message => .error (.bundle message)
  | none => .ok ()

/-- Makes all targets; programs that end alike end in the order in which they were started. -/
def run (b : Bundler) (programs : Programs) (all : List BuildTarget) : Except Fault Unit :=
  b.verdict (all.map fun t => (t, programs b.program (b.arguments t)))

/-! ## Programs that run at the same time

Programs end in any order and are looked at in the order of their ends.  The first of them that
failed decides, and stops those that still run; without a failure there is no verdict before all
have ended.
-/

/-- How far the making of bundles has come. -/
inductive Stage where
  /-- Some programs still run; others have ended but were not looked at, the first end first. -/
  | waiting (running ended : List Build)
  | decided (result : Except Fault Unit)

/-- A program ends, or is looked at; if there is none left, that is seen. -/
inductive Event where
  | ends (build : Build)
  | looks

inductive Step (b : Bundler) : Stage → Event → Stage → Prop where
  | ends {before after ended : List Build} (build : Build) :
      Step b (.waiting (before ++ build :: after) ended) (.ends build)
        (.waiting (before ++ after) (ended ++ [build]))
  | passes {running ended : List Build} {build : Build}
      (h : b.failure? build.1 build.2 = none) :
      Step b (.waiting running (build :: ended)) .looks (.waiting running ended)
  | stops {running ended : List Build} {build : Build} {message : String}
      (h : b.failure? build.1 build.2 = some message) :
      Step b (.waiting running (build :: ended)) .looks (.decided (.error (.bundle message)))
  | completes : Step b (.waiting [] []) .looks (.decided (.ok ()))

inductive Run (b : Bundler) : Stage → List Event → Stage → Prop where
  | none {s : Stage} : Run b s [] s
  | cons {s s' s'' : Stage} {event : Event} {events : List Event} (step : Step b s event s')
      (rest : Run b s' events s'') : Run b s (event :: events) s''

def endings : List Event → List Build
  | [] => []
  | .ends build :: events => build :: endings events
  | .looks :: events => endings events

end Bundler

end TypedRoutes
