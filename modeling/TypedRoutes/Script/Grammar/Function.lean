import TypedRoutes.Script.Grammar.Type

/-! # Functions: their signatures and bodies -/

namespace TypedRoutes.Script.Grammar
open TypedRoutes.Script.Parser

variable (r : Recursion)

/-- Items in braces, where the end of the text closes every brace still open. -/
def braced {α : Type} (item : Parser α) : Parser Unit := do
  expect "\x7b"
  let _ ← many do
    if (← isPunct "\x7d") || (← token) == .endOfText then return none
    return some (← item)
  let _ ← eat "\x7d"

def block : Parser Unit :=
  enclosed <| within (fun x => { x with inConditional := false }) <| braced r.statement

def inFunction {α : Type} (generator asynchronous : Bool) (p : Parser α) : Parser α :=
  within (fun x => { x with inGenerator := generator, inAsync := asynchronous }) p

/-- A function's body, which a typed notation lets a line end or semicolon replace; whether there
is one. -/
def body? (generator asynchronous : Bool) : Parser Bool := do
  if (← typed) && !(← isPunct "\x7b") && (← eatSemicolon) then return false
  else
    inFunction generator asynchronous (block r)
    return true

def functionRest (generator asynchronous ofConstructor : Bool) : Parser Signature := do
  let (parameters, returns) ← inFunction generator asynchronous do
    typeParameters? r
    let parameters ← parameters r ofConstructor
    return (parameters, ← returnAnnotation? r)
  let hasBody ← body? r generator asynchronous
  return { parameters, returns, hasBody }

def arrowBody (asynchronous : Bool) : Parser Unit :=
  inFunction false asynchronous do
    if ← isPunct "\x7b" then block r
    else
      let _ ← r.assignment

def functionExpression (asynchronous : Bool) : Parser Unit := do
  expectWord "function"
  let generator ← eat "*"
  if (← token).isName then
    let _ ← bindingName
  let _ ← functionRest r generator asynchronous false

end TypedRoutes.Script.Grammar
