import TypedRoutes.Script.Grammar.Function

/-! # Classes -/

namespace TypedRoutes.Script.Grammar
open TypedRoutes.Script.Parser

variable (r : Recursion)

def heritage : Parser Unit := do
  let _ ← r.leftHandSide true
  if ← typed then
    let _ ← typeArguments? r

def heritageList : Parser Unit := do
  heritage r
  let _ ← many do
    if ← eat "," then return some (← heritage r) else return none

def atMethod : Parser Bool := do
  return (← isPunct "(") || ((← typed) && (← isPunct "<"))

/-- The member is a property: its type, value or end follows; `orLineEnd` says whether the end of
the line may be that end. -/
def atProperty (orLineEnd : Bool) : Parser Bool := do
  let typeFollows := (← typed) && (← isOneOf ["!", ":"])
  let endFollows ← if orLineEnd then atStatementEnd else isPunct ";"
  return typeFollows || (← isOneOf ["=", "\x7d"]) || endFollows

def method (generator asynchronous ofConstructor : Bool) : Parser Unit := do
  let _ ← functionRest r generator asynchronous ofConstructor

def property : Parser Unit := do
  let _ ← eat "!"
  let _ ← annotation? r
  if ← eat "=" then
    let _ ← inFunction false false (enclosed r.assignment)
  let _ ← eatSemicolon

/-- The name of a member; its spelling if it is a plain word, and whether it names the
constructor. -/
def memberKey : Parser (Option String × Bool) := do
  match ← token with
  | .privateName _ => advance; return (none, false)
  | .string s => advance; return (none, s == "constructor")
  | _ =>
    let key ← propertyName r
    return (key, key == some "constructor")

def plainMember (isStatic : Bool) : Parser Unit := do
  if ← eat "*" then
    let _ ← memberKey r
    method r true false false
  else
    let (key, isConstructor) ← memberKey r
    if ← typed then
      let _ ← eat "?"
    if ← atMethod then
      method r false false (isConstructor && !isStatic)
    else
      let accessor := (key == some "get" || key == some "set") && !(← atProperty false) &&
        !((← newline) && (← isPunct "*"))
      if accessor then
        let _ ← memberKey r
        method r false false false
      else if ← atProperty true then property r
      else if key == some "async" && !(← newline) then
        let generator ← eat "*"
        let _ ← memberKey r
        method r generator true false
      else fail

/-- A member whose first word may be a name or a modifier of what follows: reads it as a name if
it can be one. -/
def wordMember (word : String) (orLineEnd : Bool) : Parser (Option Unit) := do
  if ← eatWord word then
    if ← atMethod then
      method r false false false
      return some ()
    else if (← atProperty orLineEnd) || ((← typed) && (← isPunct "?")) then
      let _ ← eat "?"
      property r
      return some ()
    else return none
  else return none

def member : Parser Unit := do
  if ← eat ";" then return ()
  let _ ← decorators r
  if ← typed then
    if (← wordMember r "declare" true).isSome then return ()
    modifiers ["public", "protected", "private", "declare"]
  let isStatic ← isWord "static"
  if (← wordMember r "static" false).isSome then return ()
  if isStatic && (← isPunct "\x7b") then
    inFunction false false (block r)
  else
    if ← typed then
      modifiers ["abstract", "readonly", "override", "static", "public", "protected", "private",
        "declare"]
    let accessor ←
      if ← isWord "accessor" then modifier ["accessor"] else pure false
    if !accessor && (← typed) && (← beginsIndexSignature) then
      indexSignature r
      memberEnd
    else plainMember r isStatic

def classRest : Parser (Option String) := do
  expectWord "class"
  let name ←
    match ← token with
    | .word s _ =>
      if s == "extends" || (s == "implements" && (← typed) && (← peek).token.isName) then pure none
      else
        let s ← bindingName
        pure (some s)
    | _ => pure none
  typeParameters? r
  let _ ← many do
    if ← eatWord "extends" then return some (← heritageList r)
    else if (← typed) && (← eatWord "implements") then return some (← heritageList r)
    else return none
  expect "\x7b"
  let _ ← many do
    if ← eat "\x7d" then return none
    return some (← member r)
  return name

end TypedRoutes.Script.Grammar
