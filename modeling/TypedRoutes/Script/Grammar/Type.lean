import TypedRoutes.Script.Grammar.Parameter

/-! # Types -/

namespace TypedRoutes.Script.Grammar
open TypedRoutes.Script.Parser

variable (r : Recursion)

/-- Words that are types by themselves unless a dot makes them the start of a qualified name. -/
def keywordTypes : List String :=
  ["any", "boolean", "bigint", "never", "number", "object", "string", "symbol", "unknown",
   "undefined", "intrinsic"]

/-- The node of a type that is no reference, from its start to the token before. -/
def typeFrom (start : Nat) : Parser TypeNode := do
  return .other ⟨start, ← previousStop⟩

def typeArguments : Parser (List TypeNode) := do
  splitAngle
  expect "<"
  commaList r.type ">"

def typeArguments? : Parser (Option (List TypeNode)) := do
  if !(← newline) && ((← isPunct "<") || (← isPunct "<<")) then
    return some (← typeArguments r)
  else return none

def typeParameter : Parser Unit := do
  modifiers ["in", "out", "const"]
  let _ ← name
  if ← eatWord "extends" then
    let _ ← r.type
  if ← eat "=" then
    let _ ← r.type

def typeParameters : Parser Unit := do
  expect "<"
  let _ ← commaList (typeParameter r) ">"

def typeParameters? : Parser Unit := do
  if (← typed) && (← isPunct "<") then typeParameters r

/-- The names of a qualified name after its first; a dot that no name follows ends it. -/
def qualifiedRest : Parser (List String) := do
  many do
    if ← eat "." then
      match ← token with
      | .word s _ | .privateName s => advance; return some s
      | _ => return none
    else return none

def entityHead : Parser String := do
  match ← token with
  | .word s _ =>
    if isReserved s && !(["void", "null", "this", "break"].contains s) then fail
    else advance; return s
  | _ => fail

def importType : Parser Unit := do
  expectWord "import"
  expect "("
  let _ ← stringValue
  if ← eat "," then
    if !(← isPunct ")") then
      let _ ← enclosed r.assignment
      let _ ← eat ","
  expect ")"
  let _ ← qualifiedRest
  let _ ← typeArguments? r

def typeQuery : Parser Unit := do
  expectWord "typeof"
  if ← isWord "import" then importType r
  else
    let _ ← name
    let _ ← qualifiedRest
    let _ ← typeArguments? r

def returnType : Parser TypeNode := do
  let start ← position
  let next ← peek
  let asserts := (← isWord "asserts") && next.token.isReference && !next.newlineBefore
  if asserts then
    advance
    let _ ← name
    if ← eatWord "is" then
      let _ ← r.type
    typeFrom start
  else if (← token).isReference && next.token.isWord "is" && !next.newlineBefore then
    advance
    advance
    let _ ← r.type
    typeFrom start
  else r.type

def returnAnnotation? : Parser (Option TypeNode) := do
  if (← typed) && (← eat ":") then return some (← returnType r) else return none

/-- A parameter list that has no body to give its defaults to. -/
def typeParameterList : Parser Unit := do
  if (← parameters r false).any (·.hasDefault) then fail

def callSignature : Parser Unit := do
  typeParameters? r
  typeParameterList r
  let _ ← returnAnnotation? r

/-- After an opening parenthesis: a parameter that only a function type can have. -/
def beginsParameter : Parser Bool := do
  let _ ← modifier ["public", "protected", "private", "readonly"]
  match ← token with
  | .word s _ =>
    if isReference s || s == "this" then
      advance
      return true
    else return false
  | .punct p =>
    if p == "\x7b" || p == "[" then
      let _ ← r.binding
      return true
    else return false
  | _ => return false

/-- The text is a function type, although a parenthesis may also begin another type. -/
def beginsFunctionType : Parser Bool := do
  if ← isPunct "<" then return true
  else if ← isPunct "(" then
    lookahead do
      advance
      if ← isOneOf [")", "..."] then return true
      else if ← beginsParameter r then
        if ← isOneOf [":", ",", "?", "="] then return true
        else if ← eat ")" then isPunct "=>"
        else return false
      else return false
  else return false

def functionType : Parser TypeNode := do
  let start ← position
  let _ ← eatWord "abstract"
  let _ ← eatWord "new"
  typeParameters? r
  typeParameterList r
  expect "=>"
  let _ ← returnType r
  typeFrom start

def memberEnd : Parser Unit := do
  if !(← eat ",") then semicolon

def beginsIndexSignature : Parser Bool := do
  if ← isPunct "[" then
    lookahead do
      advance
      if (← token).isReference then
        advance
        isOneOf [":", ","]
      else return false
  else return false

def indexSignature : Parser Unit := do
  expect "["
  let _ ← name
  expect ":"
  let _ ← r.type
  expect "]"
  let _ ← annotation? r

def memberName : Parser Unit := do
  match ← token with
  | .privateName _ => advance
  | _ =>
    let _ ← propertyName r

def accessorSignature : Parser Unit := do
  let reads ← eatWord "get"
  if !reads then expectWord "set"
  memberName r
  if reads then
    expect "("
    expect ")"
    let _ ← annotation? r
  else
    let written ← parameters r false
    if written.isEmpty || written.any (·.hasDefault) then fail
  memberEnd

def typeMember : Parser Unit := do
  if ← isOneOf ["(", "<"] then
    callSignature r
    memberEnd
  else if (← isWord "new") && ["(", "<"].any (← peek).token.isPunct then
    advance
    callSignature r
    memberEnd
  else
    let readonly ← modifier ["readonly"]
    if ← beginsIndexSignature then
      indexSignature r
      memberEnd
    else
      let accessor ←
        if !readonly && ((← isWord "get") || (← isWord "set")) then
          attempt (accessorSignature r)
        else pure none
      if accessor.isNone then
        memberName r
        let _ ← eat "?"
        if ← isOneOf ["(", "<"] then
          if readonly then fail
          callSignature r
        else
          let _ ← annotation? r
        memberEnd

def typeMembers : Parser Unit := do
  expect "\x7b"
  let _ ← many do
    if ← eat "\x7d" then return none
    typeMember r
    return some ()

def beginsMappedType : Parser Bool := do
  lookahead do
    advance
    if ← isOneOf ["+", "-"] then
      advance
      isWord "readonly"
    else
      let _ ← eatWord "readonly"
      if !(← eat "[") then return false
      else if !(← token).isReference then return false
      else
        advance
        isWord "in"

def mappedType : Parser Unit := do
  expect "\x7b"
  if ← isOneOf ["+", "-"] then
    advance
    expectWord "readonly"
  else
    let _ ← eatWord "readonly"
  expect "["
  let _ ← name
  expectWord "in"
  let _ ← r.type
  if ← eatWord "as" then
    let _ ← r.type
  expect "]"
  if ← isOneOf ["+", "-"] then
    advance
    expect "?"
  else
    let _ ← eat "?"
  let _ ← annotation? r
  semicolon
  expect "\x7d"

def tupleElement : Parser Unit := do
  let _ ← attempt do
    let _ ← eat "..."
    let _ ← name
    let _ ← eat "?"
    expect ":"
  if ← eat "..." then
    let _ ← r.type
  else
    let _ ← r.type
    let _ ← eat "?"

def referenceType : Parser TypeNode := do
  let start ← position
  let head ← entityHead
  let path := head :: (← qualifiedRest)
  let arguments ← typeArguments? r
  return .reference ⟨start, ← previousStop⟩ path arguments

def primaryType : Parser TypeNode := do
  let start ← position
  match ← token with
  | .word s _ =>
    let keyword := ["void", "null", "true", "false"].contains s ||
      (keywordTypes.contains s && !(← peek).token.isPunct ".")
    if keyword then
      advance
      typeFrom start
    else if s == "this" then
      advance
      if !(← newline) && (← eatWord "is") then
        let _ ← r.type
      typeFrom start
    else if s == "asserts" && (← peek).token.isWord "this" then
      advance
      advance
      if ← eatWord "is" then
        let _ ← r.type
      typeFrom start
    else if s == "typeof" then
      typeQuery r
      typeFrom start
    else if s == "import" then
      importType r
      typeFrom start
    else referenceType r
  | .string _ | .number | .bigint =>
    advance
    typeFrom start
  | .punct "-" =>
    advance
    match ← token with
    | .number | .bigint =>
      advance
      typeFrom start
    | _ => fail
  | .punct "\x7b" =>
    if ← beginsMappedType then mappedType r else typeMembers r
    typeFrom start
  | .punct "[" =>
    advance
    let _ ← commaList (tupleElement r) "]"
    typeFrom start
  | .punct "(" =>
    advance
    let _ ← r.type
    expect ")"
    typeFrom start
  | .punct "\x60" =>
    templateRest (do let _ ← r.type) false
    typeFrom start
  | _ => fail

def suffixedType : Parser TypeNode := do
  let start ← position
  let first ← primaryType r
  let suffixes ← many do
    if !(← newline) && (← eat "[") then
      if !(← eat "]") then
        let _ ← r.type
        expect "]"
      return some ()
    else return none
  if suffixes.isEmpty then return first else typeFrom start

/-- The constraint of an inferred type, unless the word belongs to a conditional type. -/
def inferredConstraint (operand : Parser TypeNode) : Parser Unit := do
  expectWord "extends"
  let _ ← operand
  if !(← context).noConditionalType && (← isPunct "?") then fail

/-- A type with its prefix operators; `operand` reads a type that is not conditional. -/
def prefixedType (operand : Parser TypeNode) : Parser TypeNode := do
  let start ← position
  match ← token with
  | .word "keyof" false | .word "unique" false | .word "readonly" false =>
    advance
    let _ ← r.typeOperator
    typeFrom start
  | .word "infer" false =>
    advance
    let _ ← name
    let _ ← attempt (inferredConstraint operand)
    typeFrom start
  | _ => suffixedType r

/-- Operands joined by an operator that may also stand before the first. -/
def joinedType (operator : String) (operand : Parser TypeNode) : Parser TypeNode := do
  let start ← position
  let _ ← eat operator
  let first ← operand
  if ← isPunct operator then
    let _ ← many do
      if ← eat operator then return some (← operand) else return none
    typeFrom start
  else return first

def plainType (operand : Parser TypeNode) : Parser TypeNode := do
  if ← beginsFunctionType r then functionType r
  else if ← isWord "new" then functionType r
  else if (← isWord "abstract") && (← peek).token.isWord "new" then functionType r
  else joinedType "|" (joinedType "&" operand)

/-- A type operand; what an inferred type extends is read one level down. -/
def typeOperand : Parser TypeNode := prefixedType r (plainType r r.typeOperator)

def conditionalType : Parser TypeNode := do
  let start ← position
  let checked ← plainType r (typeOperand r)
  if !(← newline) && (← eatWord "extends") then
    let _ ← within (fun x => { x with noConditionalType := true }) (plainType r (typeOperand r))
    let branch := within (fun x => { x with noConditionalType := false }) r.type
    expect "?"
    let _ ← branch
    expect ":"
    let _ ← branch
    typeFrom start
  else return checked

end TypedRoutes.Script.Grammar
