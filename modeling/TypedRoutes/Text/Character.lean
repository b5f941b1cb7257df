import TypedRoutes.Text.Property.Alphabetic
import TypedRoutes.Text.Property.DecimalDigit
import TypedRoutes.Text.Property.Lowercase
import TypedRoutes.Text.Property.Mark
import TypedRoutes.Text.Property.Number
import TypedRoutes.Text.Property.Uppercase

/-! # Classes of characters

ASCII is decided by comparison; the tables are asked only beyond it.
-/

namespace TypedRoutes.Text

def inRanges (table : Array (Nat × Nat)) (n : Nat) : Bool :=
  table.any fun (first, last) => first ≤ n && n ≤ last

def inRuns (table : Array (Nat × Nat × Nat)) (n : Nat) : Bool :=
  table.any fun (first, last, stride) => first ≤ n && n ≤ last && (n - first) % stride == 0

def isAscii (c : Char) : Bool := c.toNat < 128

def isAlphabetic (c : Char) : Bool :=
  if isAscii c then c.isAlpha else inRanges alphabeticRanges c.toNat

def isMark (c : Char) : Bool := !isAscii c && inRanges markRanges c.toNat

def isDecimalDigit (c : Char) : Bool :=
  if isAscii c then c.isDigit else inRanges decimalDigitRanges c.toNat

/-- General category N: decimal digits, letter numbers and other numbers. -/
def isNumeric (c : Char) : Bool :=
  if isAscii c then c.isDigit else inRanges numberRanges c.toNat

def isAlphanumeric (c : Char) : Bool := isAlphabetic c || isNumeric c

def isUppercase (c : Char) : Bool :=
  if isAscii c then c.isUpper else inRuns uppercaseRuns c.toNat

def isLowercase (c : Char) : Bool :=
  if isAscii c then c.isLower else inRuns lowercaseRuns c.toNat

/-- The property White_Space. -/
def isWhitespace (c : Char) : Bool :=
  let n := c.toNat
  (9 ≤ n && n ≤ 13) || n == 0x20 || n == 0x85 || n == 0xA0 || n == 0x1680 ||
    (0x2000 ≤ n && n ≤ 0x200A) || n == 0x2028 || n == 0x2029 || n == 0x202F || n == 0x205F ||
    n == 0x3000

/-- General category Pc. -/
def isConnector (c : Char) : Bool :=
  [0x5F, 0x203F, 0x2040, 0x2054, 0xFE33, 0xFE34, 0xFE4D, 0xFE4E, 0xFE4F, 0xFF3F].contains c.toNat

/-- Characters of a word: letters, marks, decimal digits, connectors and the two joiners. -/
def isWordCharacter (c : Char) : Bool :=
  if isAscii c then c.isAlphanum || c == '_'
  else isAlphabetic c || isMark c || isDecimalDigit c || isConnector c ||
    c.toNat == 0x200C || c.toNat == 0x200D

/-- Symbols that are alphabetic without being letters: circled and squared Latin capitals. -/
def isEnclosedLetter (c : Char) : Bool :=
  inRanges #[(0x24B6, 0x24E9), (0x1F130, 0x1F149), (0x1F150, 0x1F169), (0x1F170, 0x1F189)] c.toNat

/-- General category L. -/
def isLetter (c : Char) : Bool :=
  isAlphabetic c && !isMark c && !isEnclosedLetter c && !isNumeric c

def isIdentifierStart (c : Char) : Bool :=
  if isAscii c then c.isAlpha || c == '_' || c == '$'
  else (isAlphabetic c && !isMark c && !isEnclosedLetter c && c.toNat != 0x2E2F) ||
    [0x1885, 0x1886, 0x2118, 0x212E, 0x309B, 0x309C].contains c.toNat

def isEnclosingMark (c : Char) : Bool :=
  inRanges #[(0x488, 0x489), (0x1ABE, 0x1ABE), (0x20DD, 0x20E0), (0x20E2, 0x20E4),
    (0xA670, 0xA672)] c.toNat

def isIdentifierPart (c : Char) : Bool :=
  if isAscii c then c.isAlphanum || c == '_' || c == '$'
  else isIdentifierStart c || (isMark c && !isEnclosingMark c) || isDecimalDigit c ||
    isConnector c || c.toNat == 0x200C || c.toNat == 0x200D ||
    inRanges #[(0xB7, 0xB7), (0x387, 0x387), (0x1369, 0x1371), (0x19DA, 0x19DA)] c.toNat

end TypedRoutes.Text
