import TypedRoutes.Script.Syntax

/-! # Names of properties, bindings and parameter lists -/

namespace TypedRoutes.Script.Grammar
open TypedRoutes.Script.Parser

variable (r : Recursion)

/-- Brackets, parentheses and braces lift the restrictions that the text around them puts on an
expression. -/
def enclosed {α : Type} (p : Parser α) : Parser α :=
  within (fun x => { x with inOperator := true, colonExpected := false }) p

def expression : Parser Shape := do
  let first ← r.assignment
  if ← isPunct "," then
    let _ ← many do
      if ← eat "," then return some (← r.assignment) else return none
    return .other
  else return first

def annotation? : Parser (Option TypeNode) := do
  if (← typed) && (← eat ":") then return some (← r.type) else return none

def propertyName : Parser (Option String) := do
  match ← token with
  | .word s _ => advance; return some s
  | .string _ | .number | .bigint => advance; return none
  | .punct "[" =>
    advance
    let _ ← enclosed r.assignment
    expect "]"
    return none
  | _ => fail

def Token.beginsPropertyName : Token → Bool
  | .word _ _ | .string _ | .number | .bigint | .privateName _ => true
  | t => t.isPunct "["

/-- The text of a template literal after its opening quote; `substitution` reads what stands in a
pair of braces. -/
def templateRest (substitution : Parser Unit) (anyEscape : Bool) : Parser Unit := do
  let piece : Parser Bool := do
    match readTemplate true 0 (← cursor).lexeme.after with
    | none => fail
    | some (ending, valid, length, _) =>
      if !valid && !anyEscape then fail
      pass (1 + length)
      return ending == .substitution
  if ← piece then
    let _ ← many do
      substitution
      if !(← isPunct "\x7d") then fail
      if ← piece then return some () else return none

def propertyBinding : Parser Unit := do
  if ← eat "..." then
    let _ ← r.binding
  else
    let key ← propertyName r
    if ← eat ":" then
      let _ ← r.binding
    else if key.isNone then fail
    if ← eat "=" then
      let _ ← enclosed r.assignment

def elementBinding : Parser Unit := do
  if ← isPunct "," then return ()
  let _ ← eat "..."
  let _ ← r.binding
  if ← eat "=" then
    let _ ← enclosed r.assignment

def binding : Parser Binding := do
  match ← token with
  | .punct "[" =>
    advance
    let _ ← commaList (elementBinding r) "]"
    return .destructuring
  | .punct "\x7b" =>
    advance
    let _ ← commaList (propertyBinding r) "\x7d"
    return .destructuring
  | .word "this" _ =>
    if ← typed then
      advance
      return .identifier "this"
    else fail
  | _ => return .identifier (← bindingName)

def decorator : Parser Unit := do
  if ← eat "(" then
    let _ ← enclosed (expression r)
    expect ")"
  else
    let _ ← bindingName
    let _ ← many do
      if ← eat "." then return some (← name) else return none
  if (← typed) && (← isPunct "<") then
    let _ ← attempt do
      advance
      commaList r.type ">"
  if ← eat "(" then
    let _ ← enclosed <| commaList (do let _ ← eat "..."; r.assignment) ")"

/-- The decorators of a declaration, which only typed scripts have. -/
def decorators : Parser Bool := do
  let isTyped ← typed
  let found ← many do
    if isTyped && (← eat "@") then return some (← decorator r) else return none
  return !found.isEmpty

/-- A word that changes the declaration it stands before, if what follows on the same line can be
that declaration. -/
def modifier (words : List String) : Parser Bool := do
  match ← token with
  | .word s false =>
    if words.contains s then
      let next ← peek
      if !next.newlineBefore && (Token.beginsPropertyName next.token ||
          ["\x7b", "*", "..."].any next.token.isPunct) then
        advance
        return true
      else return false
    else return false
  | _ => return false

def modifiers (words : List String) : Parser Unit := do
  let _ ← many do
    if ← modifier words then return some () else return none

/-- A parameter; only those of a constructor take several modifiers. -/
def parameter (ofConstructor : Bool) : Parser Parameter := do
  let _ ← decorators r
  if ← typed then
    if ofConstructor then
      modifiers ["public", "protected", "private", "override", "readonly"]
    else
      let _ ← modifier ["public", "protected", "private", "readonly"]
  let isRest ← eat "..."
  let binding ← r.binding
  if ← typed then
    let _ ← eat "?"
  let annotation ← annotation? r
  let hasDefault ← eat "="
  if hasDefault then
    let _ ← enclosed r.assignment
  return { binding, annotation, hasDefault, isRest }

def parameters (ofConstructor : Bool) : Parser (List Parameter) := do
  expect "("
  commaList (parameter r ofConstructor) ")"

end TypedRoutes.Script.Grammar
