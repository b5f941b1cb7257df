import TypedRoutes.Error
import TypedRoutes.Json.Printer
import TypedRoutes.Template.Literal

/-! # Fragments

A fragment is a small text with variables and conditions, filled in from named values.  The
fragments of the generated code are constants of this module.
-/

namespace TypedRoutes.Template
open TypedRoutes.Text

inductive Piece where
  | text (s : String)
  | variable (name : String)
  /-- A variable whose text is escaped for a quoted literal. -/
  | literal (name : String)
  /-- Pieces for a variable that holds something, and others for one that does not. -/
  | choice (name : String) (whenPresent whenAbsent : List Piece)
  deriving Repr

abbrev Bindings := List (String × Json.Value)

def numberText : Json.Number → String
  | .integer n => toString n
  | .double bits => String.ofList (Json.doubleText .plain bits)

mutual

def valueText : Json.Value → String
  | .null => ""
  | .bool b => if b then "true" else "false"
  | .number n => numberText n
  | .string s => s
  | .array items => "[" ++ join ", " (valueTexts items) ++ "]"
  | .object _ => "[object]"

def valueTexts : List Json.Value → List String
  | [] => []
  | v :: vs => valueText v :: valueTexts vs

end

def isPresent : Json.Value → Bool
  | .null => false
  | .bool b => b
  | .number (.integer n) => n != 0
  | .number (.double bits) => bits.toNat % Nat.pow 2 63 != 0
  | .string s => !s.isEmpty
  | .array items => !items.isEmpty
  | .object fields => !fields.isEmpty

mutual

/-- The text of a piece, if all variables it needs are there. -/
def Piece.render (bindings : Bindings) : Piece → Except Fault String
  | .text s => .ok s
  | .variable name =>
    match bindings.lookup name with
    | some v => .ok (valueText v)
    | none => .error (.fragment ("no value is given for " ++ name))
  | .literal name =>
    match bindings.lookup name with
    | some (.string s) => .ok (escapeLiteral s)
    | some _ => .error (.fragment "only text can be escaped")
    | none => .error (.fragment ("no value is given for " ++ name))
  | .choice name whenPresent whenAbsent =>
    if (bindings.lookup name).any isPresent then renderPieces bindings whenPresent
    else renderPieces bindings whenAbsent

def renderPieces (bindings : Bindings) : List Piece → Except Fault String
  | [] => .ok ""
  | p :: ps => do
    let text ← p.render bindings
    let rest ← renderPieces bindings ps
    return text ++ rest

end

/-- A fragment filled in, without whitespace at its end. -/
def renderFragment (pieces : List Piece) (bindings : Bindings) : Except Fault String := do
  return trimEnd (← renderPieces bindings pieces)

/-! ## The fragments of the generated code -/

def headerFragment : List Piece :=
  [.text "// Generated by ", .variable "generator_name", .text " v", .variable "version",
   .text ". Do not edit by hand.\n"]

def importFragment : List Piece :=
  [.text "import ", .variable "alias", .text " from '", .literal "source", .text "';\n"]

def tableRouteFragment : List Piece :=
  [.text "'POST ", .literal "path", .text "': ", .variable "alias", .text ",\n"]

def registeredRouteFragment : List Piece :=
  [.text "app.post('", .literal "path", .text "', ", .variable "alias", .text ");\n"]

def methodFragment : List Piece :=
  [.variable "name", .variable "separator", .text " async (",
   .choice "body_type" [.text "body: ", .variable "body_type"] [], .text "): Promise<",
   .variable "return_type", .text "> =>\n", .variable "indent", .text "this.call<",
   .choice "body_type" [.variable "body_type"] [.text "void"], .text ", ",
   .variable "return_type", .text ">('", .literal "path", .text "'",
   .choice "body_type" [.text ", body"] [], .text ")", .variable "terminator", .text "\n"]

def renderFrom (pieces : List Piece) (context : Json.Value) : Except Fault String :=
  match context with
  | .object fields => renderFragment pieces fields
  | _ => .error (.fragment "the context of a fragment has to be an object")

def generatorName : String := "rpc-typegen"

def generatorVersion : String := "0.1.0"

def header (generator : String) : Except Fault String :=
  renderFragment headerFragment
    [("generator_name", .string generator), ("version", .string generatorVersion)]

end TypedRoutes.Template
