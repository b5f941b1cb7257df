import TypedRoutes.Script.Token
import TypedRoutes.Text.Character

/-! # Reading one token

`readToken` takes the text from some position on and gives the next token with the blanks and
comments before it.  Nothing is remembered between two calls, so the grammar may read the same
text again in another way (a slash as the start of a regular expression, say).
-/

namespace TypedRoutes.Script
open TypedRoutes.Text

def isLineBreak (c : Char) : Bool :=
  c == '\n' || c == '\r' || c == '\u2028' || c == '\u2029'

/-- Blanks between tokens; a byte order mark is one, the zero-width space is not. -/
def isBlank (c : Char) : Bool :=
  c != '\u0085' && (isWhitespace c || c == '\ufeff')

inductive TriviaState | blank | line | block
  deriving DecidableEq, Repr

/-- Passes blanks and comments: their length, whether a line ended in them, and the text after.
A block comment that is never closed reaches to the end of the text. -/
def skipTrivia : TriviaState → Nat → Bool → List Char → Nat × Bool × List Char
  | _, n, broken, [] => (n, broken, [])
  | .blank, n, broken, '/' :: '/' :: cs => skipTrivia .line (n + 2) broken cs
  | .blank, n, broken, '/' :: '*' :: cs => skipTrivia .block (n + 2) broken cs
  | .blank, n, broken, '<' :: '!' :: '-' :: '-' :: cs => skipTrivia .line (n + 4) broken cs
  | .blank, n, true, '-' :: '-' :: '>' :: cs => skipTrivia .line (n + 3) true cs
  | .blank, n, broken, c :: cs =>
    if isLineBreak c then skipTrivia .blank (n + 1) true cs
    else if isBlank c then skipTrivia .blank (n + 1) broken cs
    else (n, broken, c :: cs)
  | .line, n, broken, c :: cs =>
    if isLineBreak c then skipTrivia .blank (n + 1) true cs
    else skipTrivia .line (n + 1) broken cs
  | .block, n, broken, '*' :: '/' :: cs => skipTrivia .blank (n + 2) broken cs
  | .block, n, broken, c :: cs => skipTrivia .block (n + 1) (broken || isLineBreak c) cs

def skipRun (p : Char → Bool) : List Char → Nat × List Char
  | [] => (0, [])
  | c :: cs => if p c then ((skipRun p cs).1 + 1, (skipRun p cs).2) else (0, c :: cs)

def isHexDigit (c : Char) : Bool :=
  c.isDigit || ('a' ≤ c && c ≤ 'f') || ('A' ≤ c && c ≤ 'F')

def hexDigitValue (c : Char) : Nat :=
  if c.isDigit then c.toNat - '0'.toNat
  else if 'a' ≤ c && c ≤ 'f' then c.toNat - 'a'.toNat + 10
  else c.toNat - 'A'.toNat + 10

def hexValue (cs : List Char) : Nat := cs.foldl (fun n c => n * 16 + hexDigitValue c) 0

/-- A code point or UTF-16 unit written after a backslash and `u`: its value, the number of
characters it takes, and the text after it. -/
def readUnicodeEscape : List Char → Option (Nat × Nat × List Char)
  | '\x7b' :: cs =>
    let digits := cs.takeWhile isHexDigit
    match cs.drop digits.length with
    | '\x7d' :: rest =>
      if digits.isEmpty || hexValue digits > 0x10FFFF then none
      else some (hexValue digits, digits.length + 2, rest)
    | _ => none
  | a :: b :: c :: d :: rest =>
    if [a, b, c, d].all isHexDigit then some (hexValue [a, b, c, d], 4, rest) else none
  | _ => none

/-- A word from its first character on: its decoded characters, whether it was written with an
escape, its length and the text after it; `none` for an escape that is malformed or stands for a
character no word has. -/
def readWord (fuel : Nat) (first : Bool) (text : List Char) :
    Option (List Char × Bool × Nat × List Char) :=
  match fuel with
  | 0 => some ([], false, 0, text)
  | fuel + 1 =>
    let admits (c : Char) := if first then isIdentifierStart c else isIdentifierPart c
    match text with
    | '\\' :: 'u' :: cs => do
      let (value, n, rest) ← readUnicodeEscape cs
      if admits (Char.ofNat value) then
        let (name, _, m, rest) ← readWord fuel false rest
        return (Char.ofNat value :: name, true, n + 2 + m, rest)
      else none
    | '\\' :: _ => none
    | c :: cs =>
      if admits c then do
        let (name, escaped, m, rest) ← readWord fuel false cs
        return (c :: name, escaped, m + 1, rest)
      else some ([], false, 0, text)
    | [] => some ([], false, 0, [])

def simpleEscape (c : Char) : Char :=
  match c with
  | 'n' => '\n'
  | 't' => '\t'
  | 'r' => '\r'
  | 'b' => '\x08'
  | 'v' => '\x0b'
  | 'f' => '\x0c'
  | c => c

def isOctalDigit (c : Char) : Bool := '0' ≤ c && c ≤ '7'

/-- Joins UTF-16 units into characters; a unit that stands alone becomes the replacement
character. -/
def joinUnits : List Nat → List Char
  | [] => []
  | high :: low :: rest =>
    if 0xD800 ≤ high && high < 0xDC00 && 0xDC00 ≤ low && low < 0xE000 then
      Char.ofNat (0x10000 + (high - 0xD800) * 0x400 + (low - 0xDC00)) :: joinUnits rest
    else if 0xD800 ≤ high && high < 0xE000 then '\ufffd' :: joinUnits (low :: rest)
    else Char.ofNat high :: joinUnits (low :: rest)
  | [unit] => [if 0xD800 ≤ unit && unit < 0xE000 then '\ufffd' else Char.ofNat unit]

/-- The rest of a string literal after its opening quote: the code points and units of its value,
its length with the closing quote, and the text after it.  A literal that is never closed reaches
to the end of its line. -/
def readString (quote : Char) (fuel : Nat) (text : List Char) :
    Option (List Nat × Nat × List Char) :=
  match fuel with
  | 0 => none
  | fuel + 1 =>
    let continueWith (values : List Nat) (length : Nat) (rest : List Char) := do
      let (more, n, rest) ← readString quote fuel rest
      return (values ++ more, length + n, rest)
    match text with
    | [] => some ([], 0, [])
    | '\\' :: cs =>
      match cs with
      | [] => none
      | '\r' :: '\n' :: rest => continueWith [] 3 rest
      | 'x' :: a :: b :: rest =>
        if isHexDigit a && isHexDigit b then continueWith [hexValue [a, b]] 4 rest else none
      | 'x' :: _ => none
      | 'u' :: rest => do
        let (value, n, rest) ← readUnicodeEscape rest
        continueWith [value] (n + 2) rest
      | c :: rest =>
        if isLineBreak c then continueWith [] 2 rest
        else if isOctalDigit c then
          let digits := (c :: rest).takeWhile isOctalDigit |>.take (if c ≤ '3' then 3 else 2)
          continueWith [digits.foldl (fun n d => n * 8 + (d.toNat - '0'.toNat)) 0]
            (digits.length + 1) ((c :: rest).drop digits.length)
        else continueWith [(simpleEscape c).toNat] 2 rest
    | c :: cs =>
      if c == quote then some ([], 1, cs)
      else if c == '\n' || c == '\r' then some ([], 0, text)
      else continueWith [c.toNat] 1 cs

/-- The part of a number after its integer digits: fraction and exponent, or the mark of a big
integer. -/
def skipFraction (text : List Char) : Option (Bool × Nat × List Char) :=
  let digit (c : Char) := c.isDigit || c == '_'
  match text with
  | 'n' :: rest => some (true, 1, rest)
  | _ =>
    let (n, rest) :=
      match text with
      | '.' :: cs => let (n, rest) := skipRun digit cs; (n + 1, rest)
      | cs => (0, cs)
    let exponent (cs : List Char) (m : Nat) : Option (Bool × Nat × List Char) :=
      match skipRun digit cs with
      | (0, _) => none
      | (k, rest) => some (false, n + m + k, rest)
    match rest with
    | e :: '+' :: cs => if e == 'e' || e == 'E' then exponent cs 2 else some (false, n, rest)
    | e :: '-' :: cs => if e == 'e' || e == 'E' then exponent cs 2 else some (false, n, rest)
    | e :: cs => if e == 'e' || e == 'E' then exponent cs 1 else some (false, n, rest)
    | [] => some (false, n, [])

/-- A numeric literal: whether it is a big integer, its length and the text after it.  Digits of
the radix must follow a radix mark, octal digits after a zero have no fraction, and no word may
follow the literal. -/
def readNumber (text : List Char) : Option (Bool × Nat × List Char) :=
  let radix (digit : Char → Bool) (cs : List Char) : Option (Bool × Nat × List Char) :=
    match skipRun (fun c => digit c || c == '_') cs with
    | (0, _) => none
    | (n, 'n' :: rest) => some (true, n + 3, rest)
    | (n, rest) => some (false, n + 2, rest)
  let literal :=
    match text with
    | '0' :: m :: cs =>
      if m == 'x' || m == 'X' then radix isHexDigit cs
      else if m == 'o' || m == 'O' then radix isOctalDigit cs
      else if m == 'b' || m == 'B' then radix (fun c => c == '0' || c == '1') cs
      else none
    | _ => none
  let decimal := do
    let (n, rest) := skipRun (fun c => c.isDigit || c == '_') text
    let octal := n > 1 && text.head? == some '0' && (text.take n).all isOctalDigit
    if octal && rest.head? != some 'n' then return (false, n, rest)
    let (big, m, rest) ← skipFraction rest
    return (big, n + m, rest)
  let marked :=
    match text with
    | '0' :: m :: _ => ['x', 'X', 'o', 'O', 'b', 'B'].contains m
    | _ => false
  match if marked then literal else decimal with
  | none => none
  | some (big, n, rest) =>
    match rest with
    | c :: _ => if isIdentifierStart c || c.isDigit || c == '\\' then none else some (big, n, rest)
    | [] => some (big, n, [])

/-- The body and flags of a regular expression literal after its opening slash: its length and the
text after it. -/
def readRegex (inClass : Bool) (n : Nat) : List Char → Option (Nat × List Char)
  | [] => none
  | '\\' :: c :: cs => if isLineBreak c then none else readRegex inClass (n + 2) cs
  | c :: cs =>
    if isLineBreak c then none
    else if c == '/' && !inClass then
      let (flags, rest) := skipRun isIdentifierPart cs
      some (n + 1 + flags, rest)
    else readRegex (if c == '[' then true else if c == ']' then false else inClass) (n + 1) cs

inductive TemplateEnd | quote | substitution
  deriving DecidableEq, Repr

def isTemplateEscape : List Char → Bool
  | 'u' :: cs => (readUnicodeEscape cs).isSome
  | 'x' :: a :: b :: _ => isHexDigit a && isHexDigit b
  | 'x' :: _ => false
  | '0' :: c :: _ => !c.isDigit
  | c :: _ => !('1' ≤ c && c ≤ '9')
  | [] => false

/-- A piece of template text: how it ends, whether its escapes are well formed, its length with
what ends it, and the text after it. -/
def readTemplate (valid : Bool) (n : Nat) :
    List Char → Option (TemplateEnd × Bool × Nat × List Char)
  | [] => none
  | '\x60' :: cs => some (.quote, valid, n + 1, cs)
  | '$' :: '\x7b' :: cs => some (.substitution, valid, n + 2, cs)
  | '\\' :: c :: cs => readTemplate (valid && isTemplateEscape (c :: cs)) (n + 2) cs
  | _ :: cs => readTemplate valid (n + 1) cs

def firstSpelling (spellings : List String) (text : List Char) : Option String :=
  spellings.find? fun s => s.toList.isPrefixOf text

def readPunctuator (text : List Char) : Token × Nat × List Char :=
  let spelling :=
    match text with
    | '?' :: '.' :: c :: _ => if c.isDigit then some "?" else firstSpelling punctuators text
    | _ => firstSpelling punctuators text
  match spelling with
  | some s => (.punct s, s.length, text.drop s.length)
  | none => (.invalid, 1, text.drop 1)

def readBareToken (text : List Char) : Token × Nat × List Char :=
  let number (_ : Unit) : Token × Nat × List Char :=
    match readNumber text with
    | some (true, n, rest) => (.bigint, n, rest)
    | some (false, n, rest) => (.number, n, rest)
    | none => (.invalid, 1, text.drop 1)
  let quoted (quote : Char) (cs : List Char) : Token × Nat × List Char :=
    match readString quote (cs.length + 1) cs with
    | some (value, n, rest) => (.string (String.ofList (joinUnits value)), n + 1, rest)
    | none => (.invalid, 1, cs)
  match text with
  | [] => (.endOfText, 0, [])
  | '"' :: cs => quoted '"' cs
  | '\'' :: cs => quoted '\'' cs
  | '#' :: cs =>
    match readWord (cs.length + 1) true cs with
    | some (c :: name, _, n, rest) => (.privateName (String.ofList (c :: name)), n + 1, rest)
    | _ => (.invalid, 1, cs)
  | '.' :: c :: _ => if c.isDigit then number () else readPunctuator text
  | c :: cs =>
    if c.isDigit then number ()
    else if isIdentifierStart c || c == '\\' then
      let plain := text.takeWhile isIdentifierPart
      match text.drop plain.length with
      | '\\' :: _ =>
        match readWord (text.length + 1) true text with
        | some (name, escaped, n, rest) =>
          let name := String.ofList name
          if escaped && isReserved name && name != "this" then (.invalid, n, rest)
          else (.word name escaped, n, rest)
        | none => (.invalid, 1, cs)
      | rest => (.word (String.ofList plain) false, plain.length, rest)
    else readPunctuator text

structure Lexeme where
  token : Token
  start : Nat
  stop : Nat
  newlineBefore : Bool
  /-- The text from the token on. -/
  here : List Char
  after : List Char

def readToken (position : Nat) (atStart : Bool) (text : List Char) : Lexeme :=
  let (skipped, broken, here) := skipTrivia .blank 0 atStart text
  let (token, length, after) := readBareToken here
  { token, start := position + skipped, stop := position + skipped + length,
    newlineBefore := broken, here, after }

end TypedRoutes.Script
