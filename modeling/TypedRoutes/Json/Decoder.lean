import TypedRoutes.Json.Printer
import TypedRoutes.Json.Reader
import TypedRoutes.Text.Character

/-! # Decoding JSON into data

A decoder reads its data straight from a text, so that a failure can say where it arose, and also
takes it from a value that was read before.
-/

namespace TypedRoutes.Json

structure Decoder (α : Type) where
  read : Reader α
  ofValue : Value → Except Failure α

/-! ## Describing what was found -/

def isUnprintable (c : Char) : Bool :=
  let n := c.toNat
  n < 0x20 || (0x7F ≤ n && n < 0xA0) || n == 0xAD || Text.isMark c ||
    (Text.isWhitespace c && n != 0x20) || (0x200B ≤ n && n ≤ 0x200F) ||
    (0x202A ≤ n && n ≤ 0x202E) || (0x2060 ≤ n && n ≤ 0x206F) ||
    (0xE000 ≤ n && n ≤ 0xF8FF) || n == 0xFEFF || (0xFFF0 ≤ n && n ≤ 0xFFFB) || 0xE0000 ≤ n

def shownChar (c : Char) : List Char :=
  match c with
  | '"' => ['\\', '"']
  | '\\' => ['\\', '\\']
  | '\n' => ['\\', 'n']
  | '\r' => ['\\', 'r']
  | '\t' => ['\\', 't']
  | '\x00' => ['\\', '0']
  | c =>
    if isUnprintable c then
      ['\\', 'u', '\x7b'] ++ Nat.toDigits 16 c.toNat ++ ['\x7d']
    else [c]

def shown (s : String) : String := String.ofList ('"' :: s.toList.flatMap shownChar ++ ['"'])

def Number.kind : Number → String
  | integer n => "integer \x60" ++ toString n ++ "\x60"
  | double bits => "floating point \x60" ++ String.ofList (doubleText .json bits) ++ "\x60"

def Value.kind : Value → String
  | null => "null"
  | bool b => "boolean \x60" ++ (if b then "true" else "false") ++ "\x60"
  | number n => n.kind
  | string s => "string " ++ shown s
  | array _ => "sequence"
  | object _ => "map"

def mismatch (kind expected : String) : Problem :=
  .shape ("invalid type: " ++ kind ++ ", expected " ++ expected)

def Reader.failKind {α : Type} (expected : String) : Reader α := do
  match ← peek with
  | some 'n' =>
    skip
    word "ull".toList
    fail (mismatch Value.null.kind expected)
  | some 't' =>
    skip
    word "rue".toList
    fail (mismatch (Value.bool true).kind expected)
  | some 'f' =>
    skip
    word "alse".toList
    fail (mismatch (Value.bool false).kind expected)
  | some '-' =>
    skip
    fail (mismatch (← number false).kind expected)
  | some '"' =>
    skip
    fail (mismatch (Value.string (← stringRest)).kind expected)
  | some '[' => fail (mismatch (Value.array []).kind expected)
  | some '\x7b' => fail (mismatch (Value.object []).kind expected)
  | some c =>
    if c.isDigit then fail (mismatch (← number true).kind expected) else failNext .noValue
  | none => failNext .noValue

/-- A failure in a value, which has no place. -/
def failValue {α : Type} (problem : Problem) : Except Failure α := .error ⟨problem, none⟩

/-! ## Passing a value -/

namespace Reader

mutual

def skipValue : Nat → Reader Unit
  | 0 => fail .tooDeep
  | fuel + 1 => do
    match ← peekToken with
    | none => failNext .endInValue
    | some 'n' =>
      skip
      word "ull".toList
    | some 't' =>
      skip
      word "rue".toList
    | some 'f' =>
      skip
      word "alse".toList
    | some '-' =>
      skip
      skipNumber
    | some '"' =>
      skip
      skipStringRest
    | some '[' =>
      skip
      if (← peekToken) == some ']' then skip
      else if (← peek).isNone then failNext .endInList
      else skipItems fuel
    | some '\x7b' =>
      skip
      if (← peekToken) == some '\x7d' then skip else skipFields fuel
    | some c => if c.isDigit then skipNumber else failNext .noValue

def skipItems : Nat → Reader Unit
  | 0 => fail .tooDeep
  | fuel + 1 => do
    skipValue fuel
    match ← peekToken with
    | some ',' =>
      skip
      skipItems fuel
    | some ']' => skip
    | some _ => failNext .noCommaInList
    | none => failNext .endInList

def skipFields : Nat → Reader Unit
  | 0 => fail .tooDeep
  | fuel + 1 => do
    match ← peekToken with
    | some '"' => skip
    | some _ => failNext .keyNotString
    | none => failNext .endInObject
    skipStringRest
    colon
    skipValue fuel
    match ← peekToken with
    | some ',' =>
      skip
      skipFields fuel
    | some '\x7d' => skip
    | some _ => failNext .noCommaInObject
    | none => failNext .endInObject

end

/-- The place of a value must not be the end of the text. -/
def requireToken : Reader Char := do
  match ← peekToken with
  | none => failNext .endInValue
  | some c => return c

end Reader

/-! ## Decoders -/

namespace Decoder
open Reader

def map {α β : Type} (f : α → β) (d : Decoder α) : Decoder β where
  read := f <$> d.read
  ofValue v := f <$> d.ofValue v

def string : Decoder String where
  read := do
    if (← requireToken) = '"' then
      skip
      stringRest
    else failKind "a string"
  ofValue
    | .string s => .ok s
    | v => failValue (mismatch v.kind "a string")

def boolean : Decoder Bool where
  read := do
    match ← requireToken with
    | 't' =>
      skip
      word "rue".toList
      return true
    | 'f' =>
      skip
      word "alse".toList
      return false
    | _ => failKind "a boolean"
  ofValue
    | .bool b => .ok b
    | v => failValue (mismatch v.kind "a boolean")

def optional {α : Type} (d : Decoder α) : Decoder (Option α) where
  read := do
    if (← peekToken) == some 'n' then
      skip
      word "ull".toList
      return none
    else return some (← d.read)
  ofValue
    | .null => .ok none
    | v => some <$> d.ofValue v

def list {α : Type} (d : Decoder α) : Decoder (List α) where
  read := do
    if (← requireToken) = '[' then
      skip
      items d.read true ((← remaining) + 1)
    else failKind "a sequence"
  ofValue
    | .array vs => vs.mapM d.ofValue
    | v => failValue (mismatch v.kind "a sequence")

/-! ### Choices -/

def listedNames (names : List String) : String :=
  let quotedNames := names.map fun n => "\x60" ++ n ++ "\x60"
  match quotedNames with
  | [a, b] => a ++ " or " ++ b
  | [a] => a
  | _ => "one of " ++ ", ".intercalate quotedNames

def unknownVariant (name : String) (names : List String) : Problem :=
  .shape ("unknown variant \x60" ++ name ++ "\x60, expected " ++ listedNames names)

def readVariant {α : Type} (choices : List (String × α)) : Reader α := do
  if (← requireToken) = '"' then
    skip
    let name ← stringRest
    match choices.lookup name with
    | some a => return a
    | none => fail (unknownVariant name (choices.map (·.1)))
  else failKind "variant identifier"

def lookupVariant {α : Type} (choices : List (String × α)) (name : String) : Except Failure α :=
  match choices.lookup name with
  | some a => .ok a
  | none => failValue (unknownVariant name (choices.map (·.1)))

/-- One of several names, which may also be the only key of an object that holds null. -/
def variant {α : Type} (choices : List (String × α)) : Decoder α where
  read := do
    match ← requireToken with
    | '"' => readVariant choices
    | '\x7b' =>
      skip
      let a ← readVariant choices
      colon
      if (← requireToken) = 'n' then
        skip
        word "ull".toList
      else failKind "unit"
      match ← peekToken with
      | some '\x7d' =>
        skip
        return a
      | some _ => fail .noValue
      | none => fail .endInObject
    | _ => failNext .noValue
  ofValue
    | .string name => lookupVariant choices name
    | .object [(name, content)] => do
      let a ← lookupVariant choices name
      match content with
      | .null => return a
      | v => failValue (mismatch v.kind "unit")
    | .object _ => failValue (.shape "invalid value: map, expected map with a single key")
    | v => failValue (mismatch v.kind "string or map")

/-! ### Records -/

/-- A field of a record: how its value changes the record. -/
structure Field (σ : Type) where
  key : String
  update : Decoder (σ → σ)

def field {σ α : Type} (key : String) (d : Decoder α) (set : α → σ → σ) : Field σ :=
  ⟨key, d.map set⟩

/-- Reads fields by their keys; a key that names no field is passed with its value, and no field
may come twice. -/
def readByKey {σ : Type} (fs : List (Field σ)) (record : σ) (seen : List String) (first : Bool) :
    Nat → Reader σ
  | 0 => fail .endInObject
  | fuel + 1 => do
    if ← hasField first then
      skip
      let key ← stringRest
      match fs.find? (·.key == key) with
      | some f =>
        if seen.contains key then
          if (← peekToken) == some '\x7d' then skip
          fail (.shape ("duplicate field \x60" ++ key ++ "\x60"))
        else
          colon
          let update ← f.update.read
          readByKey fs (update record) (key :: seen) false fuel
      | none =>
        colon
        skipValue (2 * (← remaining) + 2)
        readByKey fs record seen false fuel
    else
      skip
      return record

/-- Reads fields by their order; those missing at the end keep what the record has. -/
def readByOrder {σ : Type} (record : σ) (first : Bool) : List (Field σ) → Reader σ
  | [] => do
    match ← peekToken with
    | some ']' =>
      skip
      return record
    | some ',' =>
      skip
      if (← peekToken) == some ']' then failNext .trailingComma
      else failNext .trailingCharacters
    | some _ => failNext .trailingCharacters
    | none => failNext .endInList
  | f :: fs => do
    if ← hasItem first then
      let update ← f.update.read
      readByOrder (update record) false fs
    else
      skip
      return record

def applyInOrder {σ : Type} (record : σ) : List (Field σ) → List Value → Except Failure σ
  | f :: fs, v :: vs => do
    let update ← f.update.ofValue v
    applyInOrder (update record) fs vs
  | _, _ => .ok record

def applyByKey {σ : Type} (fs : List (Field σ)) (record : σ) :
    List (String × Value) → Except Failure σ
  | [] => .ok record
  | (key, v) :: rest =>
    match fs.find? (·.key == key) with
    | some f => do
      let update ← f.update.ofValue v
      applyByKey fs (update record) rest
    | none => applyByKey fs record rest

/-- A record that starts out with defaults for all of its fields. -/
def record {σ : Type} (name : String) (fs : List (Field σ)) (defaults : σ) : Decoder σ where
  read := do
    match ← requireToken with
    | '[' =>
      skip
      readByOrder defaults true fs
    | '\x7b' =>
      skip
      readByKey fs defaults [] true ((← remaining) + 1)
    | _ => failKind name
  ofValue
    | .array vs => do
      let found ← applyInOrder defaults fs vs
      if vs.length > fs.length then
        failValue (.shape ("invalid length " ++ toString vs.length ++
          ", expected fewer elements in array"))
      else return found
    | .object fields => applyByKey fs defaults fields
    | v => failValue (mismatch v.kind name)

def ofText {α : Type} (d : Decoder α) (text : String) : Except Failure α := do
  let (a, _) ← (do
    let a ← d.read
    finish
    return a : Reader α).run { rest := text.toList }
  return a

end Decoder

end TypedRoutes.Json
