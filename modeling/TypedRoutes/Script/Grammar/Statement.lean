import TypedRoutes.Script.Grammar.Expression

/-! # Declarations and statements -/

namespace TypedRoutes.Script.Grammar
open TypedRoutes.Script.Parser

variable (r : Recursion)

/-! ## Declarations of types -/

def interfaceRest : Parser String := do
  let interfaceName ← name
  typeParameters? r
  if ← eatWord "extends" then
    if !(← isPunct "\x7b") then heritageList r
  typeMembers r
  return interfaceName

def aliasRest : Parser String := do
  let aliasName ← name
  typeParameters? r
  expect "="
  let _ ← r.type
  semicolon
  return aliasName

def enumMember : Parser Unit := do
  let _ ← propertyName r
  if ← eat "=" then
    let _ ← enclosed r.assignment

def enumRest : Parser String := do
  let enumName ← name
  expect "\x7b"
  let _ ← commaList (enumMember r) "\x7d"
  return enumName

def namespaceRest : Parser Unit := do
  let _ ← name
  let _ ← many do
    if ← eat "." then return some (← name) else return none
  enclosed (braced r.moduleItem)

def ambientModuleRest : Parser Unit := do
  let _ ← stringValue
  if ← isPunct "\x7b" then enclosed (braced r.moduleItem) else semicolon

def namedClass : Parser Item := do
  if (← classRest r).isNone then fail
  return .other

def typeItem (start : Nat) (declaredName : String) : Parser Item := do
  return .typeDeclaration declaredName ⟨start, ← previousStop⟩

/-- A declaration that the given word begins, if it does; the word is in front, and after `declare`
or `export` it need not be followed by a name on its line. -/
def wordDeclaration (start : Nat) (word : String) (declared : Bool) : Parser (Option Item) := do
  let next ← peek
  let named := declared || next.token.isReference
  let sameLine := !next.newlineBefore
  let broken ← newline
  let moduleLine := !(if declared then broken else next.newlineBefore)
  match word with
  | "abstract" =>
    if declared || (next.token.isWord "class" && sameLine) then
      advance
      return some (← namedClass r)
    else return none
  | "enum" =>
    advance
    return some (← typeItem start (← enumRest r))
  | "interface" =>
    if named then
      advance
      return some (← typeItem start (← interfaceRest r))
    else return none
  | "namespace" =>
    if named then
      advance
      namespaceRest r
      return some .other
    else return none
  | "module" =>
    if moduleLine then
      match next.token with
      | .string _ =>
        advance
        ambientModuleRest r
        return some .other
      | _ =>
        if named then
          advance
          namespaceRest r
          return some .other
        else return none
    else return none
  | "type" =>
    if declared || (named && sameLine) then
      advance
      return some (← typeItem start (← aliasRest r))
    else return none
  | "global" =>
    if next.token.isPunct "\x7b" then
      advance
      enclosed (braced r.moduleItem)
      return some .other
    else return none
  | _ => return none

/-! ## Variables and functions -/

/-- The last statement of a line lacks its end: whatever follows up to the next one is passed. -/
def skipToStatementEnd : Parser Unit := do
  let _ ← many do
    if ← eatSemicolon then return none
    match ← token with
    | .invalid => fail
    | _ => advance; return some ()

def declarator (kind : String) (inHead : Bool) : Parser Unit := do
  if kind != "var" && (← isWord "let") then fail
  let declared ← r.binding
  if ← typed then
    if declared != .destructuring && !(← newline) then
      let _ ← eat "!"
  let _ ← annotation? r
  if ← eat "=" then
    let _ ← r.assignment
  else if declared == .destructuring && kind != "const" then
    let head := inHead && ((← isWord "of") || (← isWord "in"))
    if !head && !(← context).ambient then fail

/-- Declared variables, from after their keyword on, without the end of the statement; a semicolon
or the end of the text may stand where one more is expected. -/
def declarators (kind : String) (inHead : Bool) : Parser Unit := do
  let _ ← many do
    if (← isPunct ";") || (← token) == .endOfText then return none
    declarator r kind inHead
    if ← eat "," then return some () else return none

/-- Goes on after an expression where the statement should have ended. -/
def recoveredExpression : Parser Unit := do
  let _ ← recover (expression r) (fun _ => true) .other
  skipToStatementEnd

def variableStatement (kind : String) : Parser Unit := do
  declarators r kind false
  if !(← eatSemicolon) then recoveredExpression r

def letDeclares (next : Token) : Bool :=
  match next with
  | .word s _ => !isReserved s || s == "this"
  | t => t.isPunct "[" || t.isPunct "\x7b"

def functionDeclaration (asynchronous : Bool) : Parser Item := do
  expectWord "function"
  let generator ← eat "*"
  let declaredName ← bindingName
  let signature ← functionRest r generator asynchronous false
  return .function declaredName signature

def defaultFunction (asynchronous : Bool) : Parser Item := do
  expectWord "function"
  let generator ← eat "*"
  let declaredName ←
    if (← token).isName then do
      let s ← bindingName
      pure (some s)
    else pure none
  let signature ← functionRest r generator asynchronous false
  return .defaultFunction declaredName signature

def ambientDeclaration (start : Nat) : Parser (Option Item) :=
  within (fun x => { x with ambient := true }) do
    match ← token with
    | .word "function" false => return some (← functionDeclaration r false)
    | .word "class" false => return some (← namedClass r)
    | .word "const" false =>
      advance
      if ← eatWord "enum" then return some (← typeItem start (← enumRest r))
      else
        variableStatement r "const"
        return some .other
    | .word "var" false =>
      advance
      variableStatement r "var"
      return some .other
    | .word "let" false =>
      advance
      variableStatement r "let"
      return some .other
    | .word "async" false =>
      advance
      return some (← functionDeclaration r true)
    | .word s _ => wordDeclaration r start s true
    | _ => return none

/-! ## Statements -/

def condition : Parser Unit := do
  expect "("
  let _ ← enclosed (expression r)
  expect ")"

/-- A statement that is not the direct member of a block: it declares no variable of a block. -/
def innerStatement : Parser Unit := do
  if (← isWord "const") || ((← isWord "let") && letDeclares (← peek).token) then fail
  let _ ← r.statement

def ifStatement : Parser Unit := do
  condition r
  innerStatement r
  if ← eatWord "else" then innerStatement r

def doStatement : Parser Unit := do
  innerStatement r
  expectWord "while"
  condition r
  let _ ← eat ";"

def loopHead (awaited : Bool) : Parser Unit := do
  if ← eatWord "of" then
    let _ ← enclosed r.assignment
  else if awaited then fail
  else if ← eatWord "in" then
    let _ ← enclosed (expression r)
  else
    expect ";"
    if !(← isPunct ";") then
      let _ ← enclosed (expression r)
    expect ";"
    if !(← isPunct ")") then
      let _ ← enclosed (expression r)

def usingInHead : Parser Bool :=
  lookahead do
    let _ ← eatWord "await"
    let next := (← peek).token
    if !(← eatWord "using") || !next.isReference || next.isWord "of" then return false
    advance
    return (← isWord "of") || (← isWord "in")

def forStatement : Parser Unit := do
  let awaited ← eatWord "await"
  expect "("
  let next ← peek
  let kind ←
    if ← isWord "var" then pure (some "var")
    else if ← isWord "const" then pure (some "const")
    else if (← isWord "let") && letDeclares next.token then pure (some "let")
    else if ← usingInHead then do
      let _ ← eatWord "await"
      pure (some "using")
    else pure none
  match kind with
  | some kind =>
    advance
    within (fun x => { x with inOperator := false }) (declarators r kind true)
    loopHead r awaited
  | none =>
    if ← isPunct ";" then loopHead r awaited
    else
      let left ← within (fun x => { x with inOperator := false }) (expression r)
      if ((← isWord "of") || (← isWord "in")) && !left.isPatternable then fail
      loopHead r awaited
  expect ")"
  innerStatement r

def switchCases : Parser Unit := do
  expect "\x7b"
  let defaults ← many do
    if ← eat "\x7d" then return none
    let isDefault ← eatWord "default"
    if !isDefault then
      expectWord "case"
      let _ ← enclosed (expression r)
    expect ":"
    let _ ← many do
      if (← isWord "case") || (← isWord "default") || (← isPunct "\x7d") ||
          (← token) == .endOfText then return none
      return some (← r.statement)
    return some isDefault
  if (defaults.filter id).length > 1 then fail

def tryStatement : Parser Unit := do
  block r
  if ← eatWord "catch" then
    if ← eat "(" then
      let _ ← r.binding
      let _ ← annotation? r
      expect ")"
    block r
  if ← eatWord "finally" then block r

def jump : Parser Unit := do
  if ← eatSemicolon then return ()
  let _ ← name
  semicolon

def labelOrExpression : Parser Item := do
  if (← isWord "interface") && (← peek).newlineBefore then
    advance
    return .other
  let shape ← within (fun x => { x with inOperator := true, arrowStart := none }) (expression r)
  let isLabel :=
    match shape with
    | .identifier _ => true
    | _ => false
  if isLabel && (← eat ":") then
    innerStatement r
    return .other
  if ← eatSemicolon then return .other
  if Cursor.atOperator (← cursor) then
    let _ ← r.operators shape 0
    return .other
  fail

def expressionStatement : Parser Item := do
  let start ← position
  let declaration ←
    match ← token with
    | .word s false =>
      if ← typed then
        if s == "declare" then
          unlessNone do
            advance
            ambientDeclaration r start
        else wordDeclaration r start s false
      else pure none
    | _ => pure none
  match declaration with
  | some item => return item
  | none =>
    let next ← peek
    let qualified := (← isWord "abstract") || (← isWord "static")
    if (← typed) && qualified && next.token.isWord "interface" then
      advance
      advance
      typeItem start (← interfaceRest r)
    else labelOrExpression r

def statement : Parser Item := do
  let _ ← decorators r
  match ← token with
  | .punct "\x7b" =>
    block r
    return .other
  | .punct ";" =>
    advance
    return .other
  | .word s false =>
    let next ← peek
    match s with
    | "function" => functionDeclaration r false
    | "class" => namedClass r
    | "import" =>
      if next.token.isPunct "(" || next.token.isPunct "." then
        let _ ← expression r
        let _ ← eat ";"
        return .other
      else fail
    | "if" =>
      advance
      ifStatement r
      return .other
    | "return" =>
      advance
      if !(← eatSemicolon) then
        let _ ← enclosed (expression r)
        semicolon
      return .other
    | "for" =>
      advance
      forStatement r
      return .other
    | "while" =>
      advance
      condition r
      innerStatement r
      return .other
    | "do" =>
      advance
      doStatement r
      return .other
    | "switch" =>
      advance
      condition r
      enclosed (switchCases r)
      return .other
    | "throw" =>
      advance
      if ← newline then fail
      let _ ← enclosed (expression r)
      semicolon
      return .other
    | "try" =>
      advance
      tryStatement r
      return .other
    | "with" =>
      advance
      condition r
      innerStatement r
      return .other
    | "break" | "continue" =>
      advance
      jump
      return .other
    | "debugger" =>
      advance
      semicolon
      return .other
    | "var" =>
      advance
      variableStatement r "var"
      return .other
    | "const" =>
      let start ← position
      advance
      if (← typed) && (← eatWord "enum") then typeItem start (← enumRest r)
      else
        variableStatement r "const"
        return .other
    | "let" =>
      if letDeclares next.token then
        advance
        variableStatement r "let"
        return .other
      else expressionStatement r
    | "using" =>
      if next.token.isReference && !next.newlineBefore then
        advance
        variableStatement r "using"
        return .other
      else expressionStatement r
    | "await" =>
      let declares ← lookahead do
        advance
        advance
        return next.token.isWord "using" && !next.newlineBefore && !(← newline) &&
          (← token).isReference
      if declares then
        advance
        advance
        variableStatement r "using"
        return .other
      else expressionStatement r
    | "async" =>
      if next.token.isWord "function" && !next.newlineBefore then
        advance
        functionDeclaration r true
      else expressionStatement r
    | _ => expressionStatement r
  | _ => expressionStatement r

end TypedRoutes.Script.Grammar
