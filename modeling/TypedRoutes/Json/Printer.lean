import TypedRoutes.Decimal.Shortest
import TypedRoutes.Json.Value

/-! # Writing JSON -/

namespace TypedRoutes.Json
open TypedRoutes.Decimal

/-! ## Numbers -/

/-- Digits with a point after the given number of them, which may lie outside them; a number
without fraction gets `.0` if `fraction` is set. -/
def positionalText (digits : List Char) (point : Int) (fraction : Bool) : List Char :=
  if point ≤ 0 then '0' :: '.' :: (List.replicate (-point).toNat '0' ++ digits)
  else if point.toNat < digits.length then
    digits.take point.toNat ++ '.' :: digits.drop point.toNat
  else
    digits ++ List.replicate (point.toNat - digits.length) '0' ++
      (if fraction then ['.', '0'] else [])

/-- One digit, a point before the others, and the power of ten with its sign. -/
def exponentText (digits : List Char) (exponent : Int) : List Char :=
  digits.take 1 ++ (if digits.length > 1 then '.' :: digits.drop 1 else []) ++
    ['e', if exponent < 0 then '-' else '+'] ++ digitChars exponent.natAbs

inductive DoubleStyle where
  /-- Positional from a hundred-thousandth up to sixteen digits, with an exponent outside. -/
  | json
  /-- Always positional, without a fraction for whole numbers. -/
  | plain
  deriving DecidableEq, Repr

def doubleText (style : DoubleStyle) (bits : UInt64) : List Char :=
  let n := bits.toNat
  let sign := if n ≥ Nat.pow 2 63 then ['-'] else []
  let biased := n / Nat.pow 2 52 % Nat.pow 2 11
  let fraction := n % Nat.pow 2 52
  if biased = 0 && fraction = 0 then sign ++ (if style = .json then "0.0" else "0").toList
  else
    let shortest := (Binary.ofFields biased fraction).shortest
    let digits := digitChars shortest.digits
    let point := shortest.exponent + digits.length
    match style with
    | .plain => sign ++ positionalText digits point false
    | .json =>
      if -5 ≤ point - 1 && point - 1 ≤ 15 then sign ++ positionalText digits point true
      else sign ++ exponentText digits (point - 1)

def Number.text : Number → List Char
  | integer n => (toString n).toList
  | double bits => doubleText .json bits

/-! ## Strings -/

def hexDigit (n : Nat) : Char := "0123456789abcdef".toList.getD n '0'

def escapeChar (c : Char) : List Char :=
  match c with
  | '"' => ['\\', '"']
  | '\\' => ['\\', '\\']
  | '\n' => ['\\', 'n']
  | '\r' => ['\\', 'r']
  | '\t' => ['\\', 't']
  | '\x08' => ['\\', 'b']
  | '\x0c' => ['\\', 'f']
  | c =>
    if c.toNat < 0x20 then
      ['\\', 'u', '0', '0', hexDigit (c.toNat / 16), hexDigit (c.toNat % 16)]
    else [c]

def quoted (s : String) : List Char := '"' :: s.toList.flatMap escapeChar ++ ['"']

/-! ## Values -/

def joinChars (separator : List Char) : List (List Char) → List Char
  | [] => []
  | [t] => t
  | t :: ts => t ++ separator ++ joinChars separator ts

mutual

def Value.compactChars : Value → List Char
  | .null => "null".toList
  | .bool b => (if b then "true" else "false").toList
  | .number n => n.text
  | .string s => quoted s
  | .array items => '[' :: joinChars [','] (compactItems items) ++ [']']
  | .object fields => '\x7b' :: joinChars [','] (compactFields fields) ++ ['\x7d']

def compactItems : List Value → List (List Char)
  | [] => []
  | v :: vs => v.compactChars :: compactItems vs

def compactFields : List (String × Value) → List (List Char)
  | [] => []
  | (k, v) :: fs => (quoted k ++ ':' :: v.compactChars) :: compactFields fs

end

def Value.compact (v : Value) : String := String.ofList v.compactChars

def breakAt (depth : Nat) : List Char := '\n' :: List.replicate (2 * depth) ' '

/-- Texts in brackets, each on a line of its own; nothing between the brackets if there are none. -/
def bracketed (opening closing : Char) (depth : Nat) (texts : List (List Char)) : List Char :=
  match texts with
  | [] => [opening, closing]
  | _ =>
    opening :: breakAt (depth + 1) ++ joinChars (',' :: breakAt (depth + 1)) texts ++
      breakAt depth ++ [closing]

mutual

def Value.prettyChars (depth : Nat) : Value → List Char
  | .null => "null".toList
  | .bool b => (if b then "true" else "false").toList
  | .number n => n.text
  | .string s => quoted s
  | .array items => bracketed '[' ']' depth (prettyItems (depth + 1) items)
  | .object fields => bracketed '\x7b' '\x7d' depth (prettyFields (depth + 1) fields)

def prettyItems (depth : Nat) : List Value → List (List Char)
  | [] => []
  | v :: vs => v.prettyChars depth :: prettyItems depth vs

def prettyFields (depth : Nat) : List (String × Value) → List (List Char)
  | [] => []
  | (k, v) :: fs => (quoted k ++ ':' :: ' ' :: v.prettyChars depth) :: prettyFields depth fs

end

def Value.pretty (v : Value) : String := String.ofList (v.prettyChars 0)

end TypedRoutes.Json
