import TypedRoutes.Script.Grammar.Type

/-! # Elements: markup inside expressions

Text and attribute values of an element are no tokens, so they are read from the characters after
the token in front.
-/

namespace TypedRoutes.Script.Grammar
open TypedRoutes.Script.Parser

variable (r : Recursion)

def elementWord : Parser String := do
  let c ← cursor
  match c.lexeme.token with
  | .word _ _ =>
    let word := c.lexeme.here.takeWhile fun ch => Text.isIdentifierPart ch || ch == '-'
    pass word.length
    return String.ofList word
  | _ => fail

def elementName : Parser (List String) := do
  let first ← elementWord
  if ← eat ":" then
    return [first, ":", ← elementWord]
  let members ← many do
    if ← eat "." then return some (← elementWord) else return none
  return first :: members

/-- A quoted attribute value: everything up to the same quote.  Before the opening quote stand the
equals sign in front and some blanks, `skipped` characters in all. -/
def attributeString (skipped : Nat) (quote : Char) (rest : List Char) : Parser Unit := do
  let value := rest.takeWhile (· != quote)
  if (rest.drop value.length).isEmpty then
    reread (.string "") rfl 1
    fail
  pass (skipped + value.length + 2)

def bracedExpression (mayBeEmpty : Bool) : Parser Unit := do
  expect "\x7b"
  let empty ← isPunct "\x7d"
  if !(mayBeEmpty && empty) then
    enclosed do
      let _ ← eat "..."
      let _ ← r.assignment
      let _ ← many do
        if ← eat "," then return some (← r.assignment) else return none
  if !(← isPunct "\x7d") then fail

def elementAttribute : Parser Unit := do
  if ← isPunct "\x7b" then
    expect "\x7b"
    expect "..."
    let _ ← enclosed r.assignment
    expect "\x7d"
  else
    let _ ← elementWord
    if ← eat ":" then
      let _ ← elementWord
    if ← isPunct "=" then
      let c ← cursor
      -- the value may hold a quote that ends no string token
      match skipTrivia .blank 0 false c.lexeme.after with
      | (n, _, quote :: rest) =>
        if quote == '"' || quote == '\'' then attributeString (1 + n) quote rest
        else
          advance
          if ← isPunct "\x7b" then
            bracedExpression r false
            expect "\x7d"
          else r.element
      | _ => fail

/-- Passes what was already read of an element, `length` characters, and the text after it; stands
before a brace or an angle bracket then. -/
def elementText (length : Nat) : Parser Unit := do
  let rest := (← cursor).lexeme.here.drop length
  let run := rest.takeWhile fun ch => ch != '\x7b' && ch != '<'
  pass (length + run.length)
  if (rest.drop run.length).isEmpty then fail

/-- Children and the closing tag; the token in front is the end of the opening tag. -/
def elementChildren (opening : List String) : Parser Unit := do
  elementText 1
  let _ ← many do
    if ← isPunct "\x7b" then
      bracedExpression r true
      elementText 1
      return some ()
    else
      -- a tag begins with the bracket alone, whatever operator the characters might form
      rereadPunct "<" 1
      if (← peek).token.isPunct "/" then return none
      else
        -- the token after the element is none: what follows it is text
        elementText (← reach r.element)
        return some ()
  expect "<"
  expect "/"
  let closing ← if ← isPunct ">" then pure [] else elementName
  expect ">"
  if closing != opening then fail

def elementRest : Parser Unit := do
  expect "<"
  if ← isPunct ">" then
    elementChildren r []
  else
    let opening ← elementName
    if (← typed) && (← isPunct "<") then
      let _ ← typeArguments r
    let _ ← many do
      if (← isPunct "/") || (← isPunct ">") then return none
      return some (← elementAttribute r)
    if ← eat "/" then expect ">"
    else
      if !(← isPunct ">") then fail
      elementChildren r opening

end TypedRoutes.Script.Grammar
