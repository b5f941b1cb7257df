import TypedRoutes.Json.Value

/-! # Reading JSON

A reader takes characters from a source that knows its place, so that each failure can say where
it arose.  Columns count the bytes of the line that have been read.
-/

namespace TypedRoutes.Json

structure Position where
  line : Nat := 1
  column : Nat := 0
  deriving DecidableEq, Repr

inductive Problem where
  | endInList
  | endInObject
  | endInString
  | endInValue
  | noColon
  | noCommaInList
  | noCommaInObject
  | badWord
  | noValue
  | badEscape
  | badNumber
  | numberTooLarge
  | controlCharacter
  | keyNotString
  | loneSurrogate
  | unfinishedSurrogate
  | trailingComma
  | trailingCharacters
  | tooDeep
  | shape (message : String)
  deriving DecidableEq, Repr

def Problem.message : Problem → String
  | endInList => "EOF while parsing a list"
  | endInObject => "EOF while parsing an object"
  | endInString => "EOF while parsing a string"
  | endInValue => "EOF while parsing a value"
  | noColon => "expected \x60:\x60"
  | noCommaInList => "expected \x60,\x60 or \x60]\x60"
  | noCommaInObject => "expected \x60,\x60 or \x60\x7d\x60"
  | badWord => "expected ident"
  | noValue => "expected value"
  | badEscape => "invalid escape"
  | badNumber => "invalid number"
  | numberTooLarge => "number out of range"
  | controlCharacter => "control character (\\u0000-\\u001F) found while parsing a string"
  | keyNotString => "key must be a string"
  | loneSurrogate => "lone leading surrogate in hex escape"
  | unfinishedSurrogate => "unexpected end of hex escape"
  | trailingComma => "trailing comma"
  | trailingCharacters => "trailing characters"
  | tooDeep => "recursion limit exceeded"
  | shape message => message

/-- A problem and, if it was found in a text, its place. -/
structure Failure where
  problem : Problem
  position : Option Position
  deriving DecidableEq, Repr

def Failure.message (f : Failure) : String :=
  match f.position with
  | some p => f.problem.message ++ " at line " ++ toString p.line ++ " column " ++ toString p.column
  | none => f.problem.message

structure Source where
  rest : List Char
  position : Position := {}

def Position.after (p : Position) (c : Char) : Position :=
  if c = '\n' then ⟨p.line + 1, 0⟩ else ⟨p.line, p.column + c.utf8Size⟩

abbrev Reader := StateT Source (Except Failure)

namespace Reader

def fail {α : Type} (problem : Problem) : Reader α := fun s =>
  .error ⟨problem, some s.position⟩

/-- Fails at the first byte of what comes next. -/
def failNext {α : Type} (problem : Problem) : Reader α := fun s =>
  let position :=
    match s.rest with
    | [] => s.position
    | '\n' :: _ => ⟨s.position.line + 1, 0⟩
    | _ => ⟨s.position.line, s.position.column + 1⟩
  .error ⟨problem, some position⟩

def peek : Reader (Option Char) := fun s => .ok (s.rest.head?, s)

def next : Reader (Option Char) := fun s =>
  match s.rest with
  | [] => .ok (none, s)
  | c :: rest => .ok (some c, ⟨rest, s.position.after c⟩)

def skip : Reader Unit := do
  let _ ← next

def takeWhile (p : Char → Bool) : Reader (List Char) := fun s =>
  let run := s.rest.takeWhile p
  .ok (run, ⟨s.rest.drop run.length, run.foldl Position.after s.position⟩)

def isBlank (c : Char) : Bool := c == ' ' || c == '\n' || c == '\t' || c == '\r'

/-- Passes blanks; what comes after them. -/
def peekToken : Reader (Option Char) := do
  let _ ← takeWhile isBlank
  peek

def remaining : Reader Nat := fun s => .ok (s.rest.length, s)

/-- The rest of a word whose first letter has been taken. -/
def word : List Char → Reader Unit
  | [] => return ()
  | c :: cs => do
    match ← next with
    | none => fail .endInValue
    | some d => if d = c then word cs else fail .badWord

/-! ## Strings -/

def hexDigit? (c : Char) : Option Nat :=
  if c.isDigit then some (c.toNat - '0'.toNat)
  else if 'a' ≤ c && c ≤ 'f' then some (c.toNat - 'a'.toNat + 10)
  else if 'A' ≤ c && c ≤ 'F' then some (c.toNat - 'A'.toNat + 10)
  else none

def hexUnit : Reader Nat := fun s =>
  match s.rest with
  | a :: b :: c :: d :: rest =>
    match hexDigit? a, hexDigit? b, hexDigit? c, hexDigit? d with
    | some a, some b, some c, some d =>
      .ok (((a * 16 + b) * 16 + c) * 16 + d,
        ⟨rest, ⟨s.position.line, s.position.column + 4⟩⟩)
    | _, _, _, _ => .error ⟨.badEscape, some ⟨s.position.line, s.position.column + 4⟩⟩
  | rest =>
    let bytes := rest.foldl (fun n c => n + c.utf8Size) 0
    if bytes ≥ 4 then .error ⟨.badEscape, some ⟨s.position.line, s.position.column + 4⟩⟩
    else .error ⟨.endInString, some (rest.foldl Position.after s.position)⟩

def require (c : Char) : Reader Unit := do
  match ← peek with
  | none => fail .endInString
  | some d =>
    skip
    if d = c then return () else fail .unfinishedSurrogate

/-- The character a hexadecimal escape stands for; two of them may make one character.  Halves of
a character are accepted where nobody asks for the value. -/
def hexEscape (strict : Bool) : Reader Char := do
  let unit ← hexUnit
  if !strict then return ' '
  else if 0xDC00 ≤ unit && unit ≤ 0xDFFF then fail .loneSurrogate
  else if 0xD800 ≤ unit && unit ≤ 0xDBFF then
    require '\\'
    require 'u'
    let low ← hexUnit
    if low < 0xDC00 || 0xDFFF < low then fail .loneSurrogate
    else return Char.ofNat (0x10000 + (unit - 0xD800) * 0x400 + (low - 0xDC00))
  else return Char.ofNat unit

def simpleEscape? (c : Char) : Option Char :=
  match c with
  | '"' => some '"'
  | '\\' => some '\\'
  | '/' => some '/'
  | 'b' => some '\x08'
  | 'f' => some '\x0c'
  | 'n' => some '\n'
  | 'r' => some '\r'
  | 't' => some '\t'
  | _ => none

def isPlain (c : Char) : Bool := c != '"' && c != '\\' && 0x20 ≤ c.toNat

/-- The rest of a string after its opening quote, in pieces. -/
def stringPieces (strict : Bool) : Nat → Reader (List (List Char))
  | 0 => fail .endInString
  | fuel + 1 => do
    let run ← takeWhile isPlain
    match ← peek with
    | none => fail .endInString
    | some '"' =>
      skip
      return [run]
    | some '\\' =>
      skip
      match ← next with
      | none => fail .endInString
      | some 'u' =>
        let c ← hexEscape strict
        return run :: [c] :: (← stringPieces strict fuel)
      | some e =>
        match simpleEscape? e with
        | some c => return run :: [c] :: (← stringPieces strict fuel)
        | none => fail .badEscape
    | some _ =>
      if strict then skip
      fail .controlCharacter

def stringRest : Reader String := do
  let pieces ← stringPieces true ((← remaining) + 1)
  return String.ofList pieces.flatten

def skipStringRest : Reader Unit := do
  let _ ← stringPieces false ((← remaining) + 1)

/-! ## Numbers -/

def maxSignificand : Nat := 0xFFFFFFFFFFFFFFFF

/-- Digits taken into a significand for as long as it fits 64 bits: the significand, how many
digits were taken, and whether one was left over. -/
def takeDigits (significand taken : Nat) : List Char → Nat × Nat × Bool
  | [] => (significand, taken, false)
  | c :: cs =>
    let n := significand * 10 + (c.toNat - '0'.toNat)
    if n ≤ maxSignificand then takeDigits n (taken + 1) cs else (significand, taken, true)

/-- A significand times a power of ten, computed in doubles. -/
def scaleDouble (significand : Nat) (exponent : Int) : Option Float :=
  let start := Float.ofNat significand
  let power (n : Nat) : Float := Float.ofScientific 1 false n
  if exponent > 308 then if significand = 0 then some start else none
  else if exponent ≥ 0 then
    let f := start * power exponent.toNat
    if f.isInf then none else some f
  else
    -- a power beyond the largest is divided out in steps
    let steps := ((-exponent).toNat - 1) / 308
    let reduced := (List.range (min steps 3)).foldl (fun f _ => f / power 308) start
    if steps > 3 then some 0.0
    else some (reduced / power ((-exponent).toNat - steps * 308))

def double (positive : Bool) (significand : Nat) (exponent : Int) : Reader Number := do
  match scaleDouble significand exponent with
  | none => fail .numberTooLarge
  | some f => return .double (if positive then f else -f).toBits

def digitRun : Reader (List Char) := takeWhile Char.isDigit

/-- The exponent of a number from its mark on; a power too large for any double but zero fails. -/
def exponentPart (positive : Bool) (significand : Nat) (start : Int) : Reader Number := do
  skip
  let positiveExponent ←
    match ← peek with
    | some '+' => skip; pure true
    | some '-' => skip; pure false
    | _ => pure true
  match ← next with
  | none => fail .endInValue
  | some c =>
    if !c.isDigit then fail .badNumber
    else
      let digits ← digitRun
      let size := (c :: digits).foldl (fun n d => n * 10 + (d.toNat - '0'.toNat)) 0
      if size > 2147483647 then
        if significand ≠ 0 && positiveExponent then fail .numberTooLarge
        else return .double (if positive then (0.0 : Float) else -0.0).toBits
      else
        double positive significand
          (if positiveExponent then start + Int.ofNat size else start - Int.ofNat size)

def atExponent : Reader Bool := do
  return (← peek) == some 'e' || (← peek) == some 'E'

def fractionPart (positive : Bool) (significand : Nat) (start : Int) : Reader Number := do
  skip
  let digits ← digitRun
  if digits.isEmpty then
    if (← peek).isSome then failNext .badNumber else failNext .endInValue
  else
    let (significand, taken, _) := takeDigits significand 0 digits
    let exponent := start - Int.ofNat taken
    if ← atExponent then exponentPart positive significand exponent
    else double positive significand exponent

/-- A number after its sign. -/
def number (positive : Bool) : Reader Number := do
  match ← peek with
  | none => fail .endInValue
  | some c =>
    if !c.isDigit then
      skip
      fail .badNumber
    else
      let digits ← if c = '0' then do skip; pure ['0'] else digitRun
      if c = '0' && (← peek).any Char.isDigit then failNext .badNumber
      else
        let (significand, taken, left) := takeDigits 0 0 digits
        let exponent := Int.ofNat (digits.length - taken)
        if (← peek) == some '.' then fractionPart positive significand exponent
        else if ← atExponent then exponentPart positive significand exponent
        else if left then double positive significand exponent
        else if positive then return .integer significand
        else if significand = 0 || significand > 0x8000000000000000 then double false significand 0
        else return .integer (-significand)

def skipNumber : Reader Unit := do
  match ← next with
  | some '0' => if (← peek).any Char.isDigit then failNext .badNumber
  | some c => if c.isDigit then let _ ← digitRun else fail .badNumber
  | none => fail .badNumber
  if (← peek) == some '.' then
    skip
    if (← digitRun).isEmpty then failNext .badNumber
  if ← atExponent then
    skip
    match ← peek with
    | some '+' | some '-' => skip
    | _ => pure ()
    match ← next with
    | some c => if c.isDigit then let _ ← digitRun else fail .badNumber
    | none => fail .badNumber

/-! ## Lists and objects -/

/-- Whether another item of a list comes; its comma is passed. -/
def hasItem (first : Bool) : Reader Bool := do
  match ← peekToken with
  | none => failNext .endInList
  | some ']' => return false
  | some c =>
    if first then return true
    else if c = ',' then
      skip
      match ← peekToken with
      | some ']' => failNext .trailingComma
      | some _ => return true
      | none => failNext .endInValue
    else failNext .noCommaInList

def hasField (first : Bool) : Reader Bool := do
  match ← peekToken with
  | none => failNext .endInObject
  | some '\x7d' => return false
  | some c =>
    if first then
      if c = '"' then return true else failNext .keyNotString
    else if c = ',' then
      skip
      match ← peekToken with
      | some '"' => return true
      | some '\x7d' => failNext .trailingComma
      | some _ => failNext .keyNotString
      | none => failNext .endInValue
    else failNext .noCommaInObject

def colon : Reader Unit := do
  match ← peekToken with
  | some ':' => skip
  | some _ => failNext .noColon
  | none => failNext .endInObject

/-- The items of a list after its opening bracket, which is closed. -/
def items {α : Type} (item : Reader α) (first : Bool) : Nat → Reader (List α)
  | 0 => fail .endInList
  | fuel + 1 => do
    if ← hasItem first then
      let a ← item
      return a :: (← items item false fuel)
    else
      skip
      return []

def fields {α : Type} (field : String → Reader α) (first : Bool) : Nat → Reader (List α)
  | 0 => fail .endInObject
  | fuel + 1 => do
    if ← hasField first then
      skip
      let key ← stringRest
      colon
      let a ← field key
      return a :: (← fields field false fuel)
    else
      skip
      return []

/-- A value that nests no deeper than the given depth. -/
def value : Nat → Reader Value
  | 0 => failNext .tooDeep
  | depth + 1 => do
    match ← peekToken with
    | none => failNext .endInValue
    | some 'n' =>
      skip
      word "ull".toList
      return .null
    | some 't' =>
      skip
      word "rue".toList
      return .bool true
    | some 'f' =>
      skip
      word "alse".toList
      return .bool false
    | some '"' =>
      skip
      return .string (← stringRest)
    | some '-' =>
      skip
      return .number (← number false)
    | some '[' =>
      if depth = 0 then failNext .tooDeep
      skip
      return .array (← items (value depth) true ((← remaining) + 1))
    | some '\x7b' =>
      if depth = 0 then failNext .tooDeep
      skip
      let found ← fields (fun key => do return (key, ← value depth)) true ((← remaining) + 1)
      return Value.ofFields found
    | some c => if c.isDigit then return .number (← number true) else failNext .noValue

def finish : Reader Unit := do
  if (← peekToken).isSome then failNext .trailingCharacters

def depthLimit : Nat := 128

end Reader

def parse (text : String) : Except Failure Value := do
  let (v, _) ← (do
    let v ← Reader.value Reader.depthLimit
    Reader.finish
    return v : Reader Value).run { rest := text.toList }
  return v

end TypedRoutes.Json
