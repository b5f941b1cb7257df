import TypedRoutes.Text.Basic
import TypedRoutes.Text.Case

/-! # Names of types -/

namespace TypedRoutes.Naming
open TypedRoutes.Text

def globalTypes : List String :=
  ["Array", "ArrayBuffer", "BigInt", "Blob", "Boolean", "Date", "Error", "File", "FormData",
   "Function", "Map", "Number", "Object", "ReadonlyArray", "Record", "RegExp", "Set", "String",
   "Symbol", "URL", "Uint8Array"]

def isGlobalType (name : String) : Bool := globalTypes.contains name

/-- What follows the last dot of a name; the whole name if nothing does. -/
def lastSegment (name : List Char) : List Char :=
  let tail := (name.reverse.takeWhile (· != '.')).reverse
  if tail.isEmpty || tail.length == name.length then name else tail

def stripQualifier (name : String) : String := String.ofList (lastSegment (trimChars name.toList))

inductive TypeRole | body | response
  deriving DecidableEq, Repr

def TypeRole.suffix : TypeRole → String
  | body => "Body"
  | response => "Response"

/-! ## Words of a name

A name is cut at every character that is neither a letter nor a digit, and at every change of case
that begins a new word.
-/

inductive CaseMode | boundary | lower | upper
  deriving DecidableEq, Repr

def CaseMode.after (mode : CaseMode) (c : Char) : CaseMode :=
  if isLowercase c then .lower else if isUppercase c then .upper else mode

/-- Cuts a run of letters and digits at its changes of case; `word` is the word being read, last
character first.  A capital after a small letter begins a word, and so does the last of several
capitals before a small letter. -/
def caseWords (mode : CaseMode) (word : List Char) : List Char → List (List Char)
  | [] => if word.isEmpty then [] else [word.reverse]
  | [c] => [(c :: word).reverse]
  | c :: d :: rest =>
    if mode.after c = .lower && isUppercase d then
      (c :: word).reverse :: caseWords .boundary [] (d :: rest)
    else if mode = .upper && isUppercase c && isLowercase d then
      word.reverse :: caseWords .boundary [c] (d :: rest)
    else caseWords (mode.after c) (c :: word) (d :: rest)

def alphanumericRuns (run : List Char) : List Char → List (List Char)
  | [] => [run.reverse]
  | c :: cs =>
    if isAlphanumeric c then alphanumericRuns (c :: run) cs
    else run.reverse :: alphanumericRuns [] cs

def nameWords (name : List Char) : List (List Char) :=
  (alphanumericRuns [] name).flatMap (caseWords .boundary [])

/-- A name with each of its words capitalized and nothing between them. -/
def upperCamel (name : String) : String :=
  String.ofList ((nameWords name.toList).flatMap capitalizeWord)

/-- The name of a type that has no declaration of its own, from the handler it belongs to. -/
def synthesizedName (functionName : String) (role : TypeRole) : String :=
  upperCamel functionName ++ role.suffix

def aliasDeclaration (name text : String) : String :=
  "export type " ++ name ++ " = " ++ dropEndChar ';' (trim text) ++ ";"

end TypedRoutes.Naming
