import TypedRoutes.Script.Grammar.Class
import TypedRoutes.Script.Grammar.Element

/-! # Expressions -/

namespace TypedRoutes.Script.Grammar
open TypedRoutes.Script.Parser

variable (r : Recursion)

def assignmentOperators : List String :=
  ["=", "+=", "-=", "*=", "/=", "%=", "**=", "<<=", ">>=", ">>>=", "&=", "|=", "^=", "&&=",
   "||=", "??="]

def strength? : Token → Option Nat
  | .punct s =>
    if s == "??" || s == "||" then some 1
    else if s == "&&" then some 2
    else if s == "|" then some 3
    else if s == "^" then some 4
    else if s == "&" then some 5
    else if ["==", "!=", "===", "!=="].contains s then some 6
    else if ["<", ">", "<=", ">="].contains s then some 7
    else if ["<<", ">>", ">>>"].contains s then some 8
    else if s == "+" || s == "-" then some 9
    else if ["*", "/", "%"].contains s then some 10
    else if s == "**" then some 11
    else none
  | .word "instanceof" false => some 7
  | .word "in" false => some 7
  | _ => none

def Cursor.atOperator (c : Cursor) : Bool := (strength? c.lexeme.token).isSome

def Token.beginsExpression : Token → Bool
  | .word s _ =>
    !isReserved s ||
      ["this", "super", "null", "true", "false", "function", "class", "new", "typeof", "void",
       "delete", "import"].contains s
  | .privateName _ | .string _ | .number | .bigint | .regex => true
  | .punct s =>
    ["(", "[", "\x7b", "<", "<<", "+", "-", "!", "~", "++", "--", "\x60", "/", "/=", "@"].contains s
  | _ => false

/-! ## Parentheses and arrow functions -/

/-- What may stand between the parentheses of an arrow function, a call or a sequence. -/
inductive Enclosed where
  | expression (shape : Shape)
  | spread (shape : Shape)
  | pattern
  deriving DecidableEq

def Enclosed.isPatternable : Enclosed → Bool
  | .expression s => s.isPatternable
  | .spread s => s.isPatternable
  | .pattern => true

def assignmentRest (left : Shape) : Parser Shape := do
  joinAngle
  match ← token with
  | .punct s =>
    if assignmentOperators.contains s then
      let allowed :=
        match left with
        | .literal patternable => s == "=" && patternable
        | left => left.isAssignable
      if !allowed then fail
      advance
      let _ ← r.assignment
      return .other
    else return left
  | _ => return left

/-- A conditional expression after its condition; arrow functions in its branches are told from
parenthesized expressions by the colon to come. -/
def branches : Parser Unit := do
  expect "?"
  let _ ← within (fun x => { x with
    inConditional := true, colonExpected := true, inOperator := true }) r.assignment
  expect ":"
  let _ ← within (fun x => { x with inConditional := true, colonExpected := false }) r.assignment

def operation : Parser Shape := do
  let left ← recover r.unary Cursor.atOperator .other
  if left == .arrow then return left
  r.operators left 0

def enclosedItem : Parser Enclosed := do
  let start ← position
  within (fun x => { x with arrowStart := some start, inOperator := true }) do
    if !(← typed) then
      let isSpread ← eat "..."
      let shape ← r.assignment
      return if isSpread then .spread shape else .expression shape
    else
      let _ ← modifier ["public", "protected", "private", "readonly"]
      let isSpread ← eat "..."
      let start ← position
      let shape ← within (fun x => { x with arrowStart := some start }) <|
        if (← token).isReference then do
          let shape ← operation r
          if isSpread || shape == .arrow then return shape else assignmentRest r shape
        else r.assignment
      let optional ←
        if ← isPunct "?" then do
          if [",", ":", ")", "="].any (← peek).token.isPunct then
            advance
            match shape with
            | .identifier _ => pure true
            | _ => fail
          else pure false
        else pure false
      let item ←
        if !optional && !isSpread && (← isPunct "?") then do
          branches r
          pure (Enclosed.expression .operation)
        else pure (if isSpread then .spread shape else .expression shape)
      if optional || (← isPunct ":") then
        if !item.isPatternable then fail
        let _ ← annotation? r
        if ← eat "=" then
          let _ ← r.assignment
        return .pattern
      else return item

/-- The items between two parentheses and whether a comma ends them. -/
def enclosedItems : Parser (List Enclosed × Bool) := do
  expect "("
  let items ← within (fun x => { x with colonExpected := false }) <| many do
    if ← isPunct ")" then return none
    let item ← enclosedItem r
    if ← isPunct ")" then return some (item, false)
    expect ","
    return some (item, true)
  expect ")"
  return (items.map (·.1), (items.getLast?.map (·.2)).getD false)

/-- A parenthesized expression, an arrow function, or the arguments of a call of `async`. -/
def parenthesized (mayBeArrow asynchronous : Bool) : Parser Shape := do
  let x ← context
  let (items, _) ← enclosedItems r
  let patternable := items.all (·.isPatternable)
  let inBranch ←
    if x.dialect.typed && x.inConditional && (← isPunct ":") then
      attempt do
        expect ":"
        let _ ← returnType r
        expect "=>"
        if !patternable then fail
        arrowBody r asynchronous
        if x.colonExpected && !(← isPunct ":") then fail
    else pure none
  if inBranch.isSome then return .arrow
  let annotated ←
    if x.dialect.typed && !x.colonExpected && (← isPunct ":") then
      attempt do
        expect ":"
        let _ ← returnType r
        if !(← isPunct "=>") then fail
    else pure none
  if items.contains .pattern || annotated.isSome || (← isPunct "=>") then
    if !mayBeArrow || !patternable || (← newline) then fail
    expect "=>"
    arrowBody r asynchronous
    return .arrow
  else if asynchronous then return .other
  else
    let isSpread (item : Enclosed) : Bool :=
      match item with
      | .spread _ => true
      | _ => false
    if items.isEmpty || items.any isSpread then fail
    return .parenthesized

def genericArrow : Parser Shape := do
  typeParameters r
  let start ← position
  let shape ← within (fun x => { x with arrowStart := some start, colonExpected := false }) <|
    operation r
  if shape == .arrow then return shape else fail

def genericAsyncArrow : Parser Shape := do
  expectWord "async"
  typeParameters r
  let _ ← parameters r false
  let _ ← returnAnnotation? r
  expect "=>"
  arrowBody r true
  return .arrow

/-! ## Literals -/

/-- A property of an object literal; whether it may be read as a binding pattern. -/
def objectProperty : Parser Bool := do
  if ← eat "..." then
    return (← r.assignment).isPatternable
  else if ← eat "*" then
    let _ ← propertyName r
    let _ ← functionRest r true false false
    return false
  else
    if ← typed then
      let _ ← modifier ["public", "protected", "private", "readonly"]
    let key ← propertyName r
    if ← eat ":" then
      return (← r.assignment).isPatternable
    else if ← atMethod then
      let _ ← functionRest r false false false
      return false
    else
      if ← typed then
        let _ ← eat "?"
      match key with
      | none => fail
      | some key =>
        if ← eat "=" then
          let _ ← r.assignment
          return true
        else if ← isOneOf [",", "\x7d"] then return true
        else if key == "get" || key == "set" || key == "async" then
          let generator ← if key == "async" then eat "*" else pure false
          let _ ← propertyName r
          let _ ← functionRest r generator (key == "async") false
          return false
        else fail

def arrayItem : Parser Bool := do
  if ← isPunct "," then return true
  let _ ← eat "..."
  return (← r.assignment).isPatternable

/-- A regular expression, from its slash on; one that never ends is no token. -/
def regexLiteral : Parser Unit := do
  match readRegex false 1 ((← cursor).lexeme.here.drop 1) with
  | some (n, _) => pass n
  | none =>
    reread .invalid rfl 1
    fail

def primary : Parser Shape := do
  let x ← context
  let start ← position
  let mayBeArrow := x.arrowStart == some start
  match ← token with
  | .string _ | .number | .bigint =>
    advance
    return .other
  | .privateName _ =>
    advance
    if ← isWord "in" then return .other else fail
  | .punct "(" => parenthesized r mayBeArrow false
  | .punct "[" =>
    advance
    return .literal ((← enclosed (commaList (arrayItem r) "]")).all id)
  | .punct "\x7b" =>
    advance
    return .literal ((← enclosed (commaList (objectProperty r) "\x7d")).all id)
  | .punct "\x60" =>
    templateRest (do let _ ← enclosed (expression r)) false
    return .other
  | .punct "/" | .punct "/=" =>
    regexLiteral
    return .other
  | .punct "@" =>
    if ← decorators r then
      let _ ← classRest r
      return .other
    else fail
  | .punct "<" =>
    if x.dialect.elements then
      elementRest r
      return .other
    else fail
  | .word "function" false =>
    functionExpression r false
    return .other
  | .word "class" false =>
    let _ ← classRest r
    return .other
  | .word s escaped =>
    if ["this", "null", "true", "false"].contains s then
      advance
      return .other
    else if !isReference s then fail
    else
      let next ← peek
      if s == "async" && !escaped && next.token.isWord "function" && !next.newlineBefore then
        advance
        functionExpression r true
        return .other
      else
        let generic ←
          if s == "async" && x.dialect.typed && mayBeArrow && next.token.isPunct "<" then
            attempt (genericAsyncArrow r)
          else pure none
        if generic.isSome then return .arrow
        else if s == "async" && mayBeArrow && next.token.isPunct "(" && !next.newlineBefore then
          advance
          parenthesized r true true
        else
          advance
          let loopHead := !x.inOperator && (← isWord "of") && !(← peek).token.isPunct "=>"
          if s == "async" && mayBeArrow && !(← newline) && (← token).isReference && !loopHead then
            advance
            expect "=>"
            arrowBody r true
            return .arrow
          else if mayBeArrow && !(← newline) && (← eat "=>") then
            arrowBody r false
            return .arrow
          else return .identifier s
  | _ => fail

/-! ## Members, calls and constructions -/

def arguments : Parser Unit := do
  expect "("
  let _ ← enclosed <| commaList (do let _ ← eat "..."; r.assignment) ")"

/-- Type arguments after an operand, with what makes them more than two comparisons. -/
def typeArgumentsRest (calls : Bool) : Parser Shape := do
  let _ ← typeArguments r
  if calls && (← isPunct "(") then
    arguments r
    return .other
  else if ← isPunct "\x60" then
    templateRest (do let _ ← enclosed (expression r)) true
    return .other
  else
    let next := (← cursor).lexeme
    let comparison :=
      next.start == (← previousStop) && ["=", "==", "===", "=>"].any next.token.isPunct
    if comparison || ["<", ">", "+", "-"].any next.token.isPunct then fail
    else if next.newlineBefore || (strength? next.token).isSome || next.token.isWord "as" ||
        next.token.isWord "satisfies" || !Token.beginsExpression next.token then return .place
    else fail

/-- One step from an operand to a part of it or a call of it; whether there was one. -/
def subscript (calls : Bool) (operand : Shape) : Parser (Bool × Shape) := do
  let isTyped ← typed
  if isTyped && !(← newline) && (← eat "!") then return (true, .place)
  let applied ←
    if isTyped && ((← isPunct "<") || (← isPunct "<<")) then
      attempt (typeArgumentsRest r calls)
    else pure none
  match applied with
  | some shape => return (true, shape)
  | none =>
    if ← eat "?." then
      if !calls then fail
      if ← eat "[" then
        let _ ← enclosed (expression r)
        expect "]"
      else if ← isPunct "(" then arguments r
      else if isTyped && ((← isPunct "<") || (← isPunct "<<")) then
        let _ ← typeArguments r
        arguments r
      else
        match ← token with
        | .word _ _ | .privateName _ => advance
        | _ => fail
      return (true, .optionalChain)
    else if ← eat "[" then
      let _ ← enclosed (expression r)
      expect "]"
      return (true, .place)
    else if calls && (← isPunct "(") then
      arguments r
      return (true, .other)
    else if ← eat "." then
      match ← token with
      | .word _ _ | .privateName _ =>
        advance
        return (true, .place)
      | _ => fail
    else if ← isPunct "\x60" then
      templateRest (do let _ ← enclosed (expression r)) true
      return (true, .other)
    else return (false, operand)

def subscripts (calls : Bool) (operand : Shape) : Parser Shape :=
  iterate (subscript r calls) operand

def construction (calls : Bool) : Parser Shape := do
  expectWord "new"
  if ← eat "." then
    expectWord "target"
    subscripts r calls .other
  else
    let callee ← r.leftHandSide false
    if callee == .arrow then return callee
    if ← isPunct "?." then fail
    if (← typed) && ((← isPunct "<") || (← isPunct "<<")) then
      let _ ← attempt do
        let _ ← typeArguments r
        if !(← isPunct "(") then fail
    if ← isPunct "(" then
      arguments r
      subscripts r calls .other
    else return .bareConstruction

def importExpression : Parser Unit := do
  expectWord "import"
  if ← eat "." then
    let word ← name
    if word != "meta" then arguments r
  else arguments r

def leftHandSide (calls : Bool) : Parser Shape := do
  match ← token with
  | .word "new" false => construction r calls
  | .word "super" false =>
    advance
    if ← isOneOf ["(", ".", "["] then subscripts r calls .other else fail
  | .word "import" false =>
    importExpression r
    subscripts r calls .other
  | _ =>
    let operand ← primary r
    if operand == .arrow then return operand else subscripts r calls operand

/-! ## Operators -/

def prefixOperators : List String := ["+", "-", "~", "!"]

def prefixWords : List String := ["delete", "typeof", "void"]

def unaryExpression : Parser Shape := do
  let x ← context
  let operand : Parser Unit := do
    let _ ← recover r.unary (fun _ => true) .other
  match ← token with
  | .punct s =>
    if s == "++" || s == "--" then
      advance
      let _ ← r.unary
      return .operation
    else if prefixOperators.contains s then
      advance
      operand
      return .unary
    else if (s == "<" || s == "<<") && x.dialect.typed && !x.dialect.elements then
      splitAngle
      advance
      if (← isWord "const") then advance
      else
        let _ ← r.type
      expect ">"
      let _ ← r.unary
      return .place
    else postfixExpression
  | .word s false =>
    if prefixWords.contains s then
      advance
      operand
      return .unary
    else if s == "await" then
      advance
      if !x.inAsync && ((← isOneOf [")", "]", ";", ","]) || (← token) == .endOfText) then
        return .identifier "await"
      else
        let _ ← r.unary
        return .unary
    else postfixExpression
  | _ => postfixExpression
where
  postfixExpression : Parser Shape := do
    let operand ← leftHandSide r true
    if operand == .arrow then return operand
    if !(← newline) && (← isOneOf ["++", "--"]) then
      advance
      return .operation
    else return operand

/-- One operator with its right operand, if it binds more strongly than `least`. -/
def operatorStep (least : Nat) (left : Shape) : Parser (Bool × Shape) := do
  let x ← context
  let view := (← isWord "as") || (← isWord "satisfies")
  if x.dialect.typed && !(← newline) && view && least < 7 then
    let constant ← eatWord "as"
    if !constant then advance
    if constant && (← isWord "const") then advance
    else
      let _ ← r.type
    return (true, .place)
  else
    joinAngle
    let t ← token
    match strength? t with
    | none => return (false, left)
    | some strength =>
      if strength ≤ least || (t.isWord "in" && !x.inOperator) then return (false, left)
      if strength == 11 && left == .unary then fail
      advance
      let right ← r.unary
      let _ ← r.operators right (if strength == 11 then strength - 1 else strength)
      return (true, .operation)

def operators (left : Shape) (least : Nat) : Parser Shape :=
  iterate (operatorStep r least) left

def yieldExpression : Parser Shape := do
  expectWord "yield"
  if ← atStatementEnd then return .other
  else if ← eat "*" then
    let _ ← r.assignment
    return .other
  else if Token.beginsExpression (← token) then
    let _ ← r.assignment
    return .other
  else return .other

/-- An expression without commas that begins with no type parameters. -/
def plainAssignment : Parser Shape := do
  let x ← context
  if x.inGenerator && (← isWord "yield") then yieldExpression r
  else
    let start ← position
    let left ← within (fun x => { x with arrowStart := some start }) (operation r)
    if left == .arrow then return left
    else if ← isPunct "?" then
      branches r
      return .operation
    else if left == .operation || left == .unary then return left
    else assignmentRest r left

def assignmentExpression : Parser Shape := do
  let d := (← context).dialect
  if d.typed && ((← isPunct "<") || (← isPunct "<<")) then
    if d.elements then
      match ← attempt (plainAssignment r) with
      | some shape => return shape
      | none => genericArrow r
    else
      match ← attempt (genericArrow r) with
      | some shape => return shape
      | none => plainAssignment r
  else plainAssignment r

end TypedRoutes.Script.Grammar
