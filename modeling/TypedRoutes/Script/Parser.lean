import TypedRoutes.Script.Cursor

/-! # Parsers over tokens

A parser looks at the token in front of it and either moves on with a value or fails.  A failure
keeps the place where it arose, because a few rules of the grammar go on from there.  Going back
is returning to the cursor a parser began at; nothing else is remembered, so no parser leaves the
text before the place where it began.
-/

namespace TypedRoutes.Script

structure Dialect where
  typed : Bool
  /-- An opening angle bracket may begin an element. -/
  elements : Bool
  deriving DecidableEq, Repr

structure Context where
  dialect : Dialect
  /-- More rounds than any repetition over this text can take. -/
  rounds : Nat
  /-- The word `in` is an operator here. -/
  inOperator : Bool := true
  inGenerator : Bool := false
  inAsync : Bool := false
  ambient : Bool := false
  inConditional : Bool := false
  /-- The colon of a conditional expression is still to come. -/
  colonExpected : Bool := false
  /-- Where an arrow function would have to begin. -/
  arrowStart : Option Nat := none
  /-- `extends` does not begin a conditional type here. -/
  noConditionalType : Bool := false

inductive Reply (α : Type) where
  | ok (value : α) (next : Cursor)
  | fail (place : Cursor)

def Reply.place {α : Type} : Reply α → Cursor
  | .ok _ c => c
  | .fail c => c

/-- A way to read a value, which never goes back in the text. -/
structure Parser (α : Type) where
  run : Context → Cursor → Reply α
  forward : ∀ (x : Context) (c : Cursor), c.Reaches (run x c).place

namespace Parser

@[inline] protected def pure {α : Type} (a : α) : Parser α where
  run _ c := .ok a c
  forward _ c := .here c

@[inline] protected def bind {α β : Type} (p : Parser α) (f : α → Parser β) : Parser β where
  run x c :=
    match p.run x c with
    | .ok a c => (f a).run x c
    | .fail c => .fail c
  forward x c := by
    have hp := p.forward x c
    cases hrun : p.run x c with
    | ok a c' =>
      rw [hrun] at hp
      exact .trans hp ((f a).forward x c')
    | fail c' =>
      rw [hrun] at hp
      exact hp

instance : Monad Parser where
  pure := Parser.pure
  bind := Parser.bind

def fail {α : Type} : Parser α where
  run _ c := .fail c
  forward _ c := .here c

def context : Parser Context where
  run x c := .ok x c
  forward _ c := .here c

def cursor : Parser Cursor where
  run _ c := .ok c c
  forward _ c := .here c

def advance : Parser Unit where
  run _ c := .ok () c.next
  forward _ c := .next c

/-- Moves past a number of characters from the token in front on. -/
def pass (length : Nat) : Parser Unit where
  run _ c := .ok () (c.after length)
  forward _ c := .after c length

/-- Reads the first `length` characters of the token in front as another token, which is no word. -/
def reread (token : Token) (plain : token.isName = false) (length : Nat) : Parser Unit where
  run _ c := .ok () (c.reread token length)
  forward _ c := .reread c plain length

def rereadPunct (spelling : String) (length : Nat) : Parser Unit :=
  reread (.punct spelling) rfl length

@[inline] def within {α : Type} (change : Context → Context) (p : Parser α) : Parser α where
  run x c := p.run (change x) c
  forward x c := p.forward (change x) c

/-- Runs a parser; where it fails, the text is as if it had not been tried. -/
@[inline] def attempt {α : Type} (p : Parser α) : Parser (Option α) where
  run x c :=
    match p.run x c with
    | .ok a c => .ok (some a) c
    | .fail _ => .ok none c
  forward x c := by
    have hp := p.forward x c
    split
    · rename_i hrun
      rwa [hrun] at hp
    · exact .here c

/-- Runs a parser; where it gives nothing, the text is as if it had not been tried. -/
@[inline] def unlessNone {α : Type} (p : Parser (Option α)) : Parser (Option α) where
  run x c :=
    match p.run x c with
    | .ok (some a) c => .ok (some a) c
    | .ok none _ => .ok none c
    | .fail c => .fail c
  forward x c := by
    have hp := p.forward x c
    split
    · rename_i hrun
      rwa [hrun] at hp
    · exact .here c
    · rename_i hrun
      rwa [hrun] at hp

@[inline] def lookahead (p : Parser Bool) : Parser Bool where
  run x c :=
    match p.run x c with
    | .ok b _ => .ok b c
    | .fail _ => .ok false c
  forward x c := by split <;> exact .here c

/-- Runs a parser and stays where it was; the number of characters from there to the end of the
last token passed. -/
@[inline] def reach {α : Type} (p : Parser α) : Parser Nat where
  run x c :=
    match p.run x c with
    | .ok _ c' => .ok (c'.previousStop - c.lexeme.start) c
    | .fail c' => .fail c'
  forward x c := by
    have hp := p.forward x c
    split
    · exact .here c
    · rename_i hrun
      rwa [hrun] at hp

/-- Runs a parser; where it fails and the place of the failure passes the test, goes on there. -/
@[inline] def recover {α : Type} (p : Parser α) (test : Cursor → Bool) (otherwise : α) :
    Parser α where
  run x c :=
    match p.run x c with
    | .ok a c => .ok a c
    | .fail c => if test c then .ok otherwise c else .fail c
  forward x c := by
    have hp := p.forward x c
    cases hrun : p.run x c with
    | ok a c' => rwa [hrun] at hp
    | fail c' =>
      rw [hrun] at hp
      dsimp only
      split <;> exact hp

def repeatUpTo {α : Type} (p : Parser (Option α)) : Nat → Parser (List α)
  | 0 => fail
  | n + 1 => do
    match ← p with
    | none => return []
    | some a => return a :: (← repeatUpTo p n)

def many {α : Type} (p : Parser (Option α)) : Parser (List α) := do
  repeatUpTo p (← context).rounds

def iterateUpTo {σ : Type} (step : σ → Parser (Bool × σ)) : Nat → σ → Parser σ
  | 0, _ => fail
  | n + 1, s => do
    let (more, s) ← step s
    if more then iterateUpTo step n s else return s

/-- Repeats a step on a value for as long as the step asks to go on. -/
def iterate {σ : Type} (step : σ → Parser (Bool × σ)) (s : σ) : Parser σ := do
  iterateUpTo step (← context).rounds s

end Parser

open TypedRoutes.Script.Parser

def token : Parser Token := do return (← cursor).lexeme.token

def peek : Parser Lexeme := do return (← cursor).next.lexeme

def position : Parser Nat := do return (← cursor).lexeme.start

def previousStop : Parser Nat := do return (← cursor).previousStop

def newline : Parser Bool := do return (← cursor).lexeme.newlineBefore

def typed : Parser Bool := do return (← context).dialect.typed

def Token.isPunct (t : Token) (spelling : String) : Bool :=
  match t with
  | .punct s => s == spelling
  | _ => false

def Token.isWord (t : Token) (name : String) : Bool :=
  match t with
  | .word s false => s == name
  | _ => false

def Token.isString : Token → Bool
  | .string _ => true
  | _ => false

def Token.isReference : Token → Bool
  | .word s _ => Script.isReference s
  | _ => false

def isPunct (spelling : String) : Parser Bool := do return (← token).isPunct spelling

def isWord (name : String) : Parser Bool := do return (← token).isWord name

def isOneOf (spellings : List String) : Parser Bool := do
  match ← token with
  | .punct s => return spellings.contains s
  | _ => return false

@[inline] def eatIf (test : Token → Bool) : Parser Bool := do
  if test (← token) then
    advance
    return true
  else return false

def eat (spelling : String) : Parser Bool := eatIf (·.isPunct spelling)

def eatWord (name : String) : Parser Bool := eatIf (·.isWord name)

def expect (spelling : String) : Parser Unit := do
  if !(← eat spelling) then fail

def expectWord (name : String) : Parser Unit := do
  if !(← eatWord name) then fail

def name : Parser String := do
  match ← token with
  | .word s _ => advance; return s
  | _ => fail

/-- A word that may be bound: not reserved, and not `await`. -/
def bindingName : Parser String := do
  match ← token with
  | .word s _ =>
    if isReserved s || (s == "await" && !(← context).ambient) then fail
    else advance; return s
  | _ => fail

def stringValue : Parser String := do
  match ← token with
  | .string s => advance; return s
  | _ => fail

/-- A statement may end here: at a semicolon, before a closing brace, at a line end, or at the end
of the text. -/
def Lexeme.endsStatement (l : Lexeme) : Bool :=
  l.newlineBefore || l.token.isPunct ";" || l.token.isPunct "\x7d" || l.token == .endOfText

def atStatementEnd : Parser Bool := do return (← cursor).lexeme.endsStatement

def eatSemicolon : Parser Bool := do
  if ← eat ";" then return true else atStatementEnd

def semicolon : Parser Unit := do
  if !(← eatSemicolon) then fail

/-- Items up to a closing token, which is passed; between two of them stands a comma, and one may
stand after the last. -/
def commaList {α : Type} (item : Parser α) (close : String) : Parser (List α) := do
  let items ← many do
    if ← isPunct close then return none
    let a ← item
    if !(← isPunct close) then expect ","
    return some a
  expect close
  return items

def splitAngle : Parser Unit := do
  if ← isPunct "<<" then
    rereadPunct "<" 1

/-- Reads a closing angle bracket with what follows it as the operator it begins. -/
def joinAngle : Parser Unit := do
  let c ← cursor
  if c.lexeme.token.isPunct ">" then
    match firstSpelling closingAngles c.lexeme.here with
    | some s => rereadPunct s s.length
    | none => return ()

end TypedRoutes.Script
