import TypedRoutes.Script.Grammar.Statement

/-! # Imports, exports and whole modules -/

namespace TypedRoutes.Script.Grammar
open TypedRoutes.Script.Parser

variable (r : Recursion)

def importAttributes : Parser Unit := do
  if !(← newline) && ((← isWord "with") || (← isWord "assert")) then
    advance
    if ← isPunct "\x7b" then
      let _ ← r.assignment
    else fail

def specifierRest : Parser String := do
  let source ← stringValue
  importAttributes r
  semicolon
  return source

def exportName : Parser (String × Bool) := do
  match ← token with
  | .word s _ => advance; return (s, true)
  | .string s => advance; return (s, false)
  | _ => fail

def importBinding : Parser String := bindingName

def importSpecifier : Parser ImportSpecifier := do
  let (imported, isWordName) ← exportName
  let finish (imported : String) (isWordName : Bool) : Parser ImportSpecifier := do
    if ← eatWord "as" then
      return .named imported (← importBinding)
    else if !isWordName || !isReference imported || imported == "let" then fail
    else return .named imported imported
  if isWordName && imported == "type" && (← typed) && (← token).isName then
    let second ← name
    if second == "as" then
      if !(← token).isName then return .named "as" "as"
      else
        let third ← importBinding
        if third == "as" then
          if (← token).isName then return .named "as" (← importBinding)
          else return .named "type" "as"
        else return .named "type" third
    else finish second true
  else if isWordName && imported == "type" && (← typed) then
    match ← token with
    | .string s =>
      advance
      finish s false
    | _ => finish imported true
  else finish imported isWordName

/-- What an alias of an import names: a module by its specifier, or a qualified name. -/
def importAlias : Parser Unit := do
  expect "="
  if (← isWord "require") && (← peek).token.isPunct "(" then
    advance
    expect "("
    let _ ← stringValue
    expect ")"
  else
    let _ ← name
    let _ ← qualifiedRest
  semicolon

def importClause : Parser (List ImportSpecifier) := do
  if ← eat "*" then
    expectWord "as"
    return [.whole (← importBinding)]
  else
    expect "\x7b"
    commaList importSpecifier "\x7d"

def importRest : Parser Item := do
  match ← token with
  | .string _ => return .importFrom (← specifierRest r) []
  | _ =>
    let isTyped ← typed
    -- a leading word may be the default's name, or say what kind of import this is
    let leading ←
      if ← isOneOf ["*", "\x7b"] then pure none
      else do
        let first ← importBinding
        let next := (← peek).token
        if isTyped && first == "type" then
          if ← isOneOf ["*", "\x7b"] then pure none
          else if (← token).isReference &&
              (!(← isWord "from") || next.isWord "from" || next.isPunct "=") then do
            let second ← importBinding
            pure (some second)
          else pure (some first)
        else if first == "defer" || first == "source" then
          if first == "defer" && (← isPunct "*") then pure none
          else if (← token).isReference && (!(← isWord "from") || next.isWord "from") then do
            let second ← importBinding
            pure (some second)
          else pure (some first)
        else pure (some first)
    match leading with
    | none =>
      let specifiers ← importClause
      expectWord "from"
      return .importFrom (← specifierRest r) specifiers
    | some first =>
      if isTyped && (← isPunct "=") then
        importAlias
        return .other
      else
        let more ← if ← eat "," then importClause else pure []
        expectWord "from"
        return .importFrom (← specifierRest r) (.default first :: more)

/-- One entry of an export list: the name under which it is exported, and whether a word of this
module can stand for it. -/
def exportSpecifier : Parser (String × Bool) := do
  let (listed, isWordName) ← exportName
  let finish (listed : String) (isWordName : Bool) : Parser (String × Bool) := do
    if ← eatWord "as" then
      let (exported, _) ← exportName
      return (exported, isWordName)
    else return (listed, isWordName)
  if isWordName && listed == "type" && (← typed) then
    match ← token with
    | .word _ _ =>
      let second ← name
      if second == "as" then
        if !(← token).isName then return ("as", true)
        else
          let third ← name
          if third == "as" then
            if (← token).isName then return (← name, true)
            else return ("as", true)
          else return (third, true)
      else finish second true
    | .string s =>
      advance
      finish s false
    | _ => finish listed true
  else finish listed isWordName

def exportList : Parser Item := do
  expect "\x7b"
  let entries ← commaList exportSpecifier "\x7d"
  if ← eatWord "from" then
    let _ ← specifierRest r
  else
    if entries.any (!·.2) then fail
    semicolon
  return .exportNames (entries.map (·.1))

def exportAll : Parser Item := do
  expect "*"
  if ← eatWord "as" then
    let _ ← exportName
  expectWord "from"
  let _ ← specifierRest r
  return .other

def exportFromRest : Parser Item := do
  if ← eat "," then
    if ← eat "*" then
      expectWord "as"
      let _ ← exportName
    else
      expect "\x7b"
      let _ ← commaList exportSpecifier "\x7d"
  expectWord "from"
  let _ ← specifierRest r
  return .exportNames ["default"]

/-- The export of another module's default under a name, which only untyped scripts have. -/
def exportFrom : Parser Item := do
  if ← typed then fail
  else
    let _ ← importBinding
    exportFromRest r

def exportDefault : Parser Item := do
  let next ← peek
  let beforeClass := next.token.isWord "class" && !next.newlineBefore
  let fromOther ←
    if ← isWord "from" then pure next.token.isString
    else if ← isPunct "," then pure (next.token.isPunct "\x7b" || next.token.isPunct "*")
    else pure false
  if fromOther && !(← typed) then exportFromRest r
  else if (← typed) && (← isWord "abstract") && beforeClass then
    advance
    let _ ← classRest r
    return .defaultClass
  else if (← typed) && (← isWord "interface") then
    advance
    let _ ← interfaceRest r
    return .defaultExpression .other
  else if (← isWord "class") || (← isPunct "@") then
    let _ ← decorators r
    let _ ← classRest r
    return .defaultClass
  else if (← isWord "async") && next.token.isWord "function" && !next.newlineBefore then
    advance
    defaultFunction r true
  else if ← isWord "function" then defaultFunction r false
  else
    let shape ← enclosed r.assignment
    semicolon
    return .defaultExpression shape

/-- The exported declaration that a word begins, which may also begin something else. -/
def exportedWord (start : Nat) : Parser (Option Item) := do
  match ← token with
  | .word s false =>
    if ["abstract", "enum", "interface", "module", "namespace", "type"].contains s then
      match ← attempt (wordDeclaration r start s true) with
      | some found => return found
      | none => return none
    else if s == "declare" then
      advance
      ambientDeclaration r start
    else return none
  | _ => return none

/-- An export that begins with the token in front; `next` is the second token after `export`. -/
def exportedForm (start : Nat) (isTyped : Bool) (next : Lexeme) : Parser Item := do
  match ← token with
  | .punct "*" => exportAll r
  | .punct "\x7b" => exportList r
  | .word "class" false => namedClass r
  | .word "abstract" false =>
    if next.token.isWord "class" then
      advance
      namedClass r
    else exportFrom r
  | .word "function" false => functionDeclaration r false
  | .word "async" false =>
    if next.token.isWord "function" && !next.newlineBefore then
      advance
      functionDeclaration r true
    else exportFrom r
  | .word "const" false =>
    advance
    if isTyped && (← eatWord "enum") then typeItem start (← enumRest r)
    else
      variableStatement r "const"
      return .other
  | .word "var" false =>
    advance
    variableStatement r "var"
    return .other
  | .word "let" false =>
    if letDeclares next.token then
      advance
      variableStatement r "let"
      return .other
    else exportFrom r
  | _ => exportFrom r

def exportedItem (start : Nat) (isTyped : Bool) (next : Lexeme) : Parser Item := do
  let _ ← decorators r
  if isTyped && (← isWord "type") && (next.token.isPunct "\x7b" || next.token.isPunct "*") then
    advance
  exportedForm r start isTyped next

def exportedRest (start : Nat) (isTyped : Bool) : Parser Item := do
  let next ← peek
  let declaration ← if isTyped then exportedWord r start else pure none
  match declaration with
  | some item => return item
  | none => exportedItem r start isTyped next

def exportRest (start : Nat) : Parser Item := do
  let isTyped ← typed
  if isTyped && (← isWord "import") then
    advance
    if (← isWord "type") && !(← peek).token.isPunct "=" then advance
    let _ ← importBinding
    importAlias
    return .other
  else if isTyped && (← eat "=") then
    let _ ← enclosed (expression r)
    semicolon
    return .other
  else if isTyped && (← isWord "as") && (← peek).token.isWord "namespace" then
    advance
    advance
    let _ ← name
    semicolon
    return .other
  else if ← eatWord "default" then exportDefault r
  else exportedRest r start isTyped

def moduleItem : Parser Item := do
  let _ ← decorators r
  let next ← peek
  let start ← position
  if (← isWord "import") && !next.token.isPunct "(" && !next.token.isPunct "." then
    advance
    importRest r
  else if ← eatWord "export" then exportRest r start
  else statement r

end TypedRoutes.Script.Grammar
