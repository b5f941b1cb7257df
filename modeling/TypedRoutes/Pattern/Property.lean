import TypedRoutes.Text.Basic
import TypedRoutes.Text.Character
import TypedRoutes.Text.Property.Category
import TypedRoutes.Text.Property.Script

/-! # Named classes of characters in patterns -/

namespace TypedRoutes.Pattern
open TypedRoutes.Text

abbrev CharClass := Char → Bool

def complement (p : CharClass) : CharClass := fun c => !p c

def inCategory (key : String) : CharClass := fun c =>
  match categoryRanges.lookup key with
  | some ranges => inRanges ranges c.toNat
  | none => false

def isLowercaseLetter : CharClass := fun c =>
  isLetter c && isLowercase c && !inCategory "Lm" c && c.toNat != 0xAA && c.toNat != 0xBA

def isUppercaseLetter : CharClass := fun c => isLetter c && isUppercase c

def isPrivateUse : CharClass := fun c =>
  inRanges #[(0xE000, 0xF8FF), (0xF0000, 0xFFFFD), (0x100000, 0x10FFFD)] c.toNat

def isControl : CharClass := fun c => c.toNat < 0x20 || (0x7F ≤ c.toNat && c.toNat < 0xA0)

def isSeparator : CharClass := fun c => isWhitespace c && !isControl c

def anyOf (classes : List CharClass) : CharClass := fun c => classes.any (· c)

def isPunctuation : CharClass :=
  anyOf (["Pc", "Pd", "Ps", "Pe", "Pi", "Pf", "Po"].map inCategory)

def isSymbol : CharClass := anyOf (["Sm", "Sc", "Sk", "So"].map inCategory)

def isAssigned : CharClass :=
  anyOf [isLetter, isMark, isNumeric, isPunctuation, isSymbol, isSeparator, isControl,
    inCategory "Cf", isPrivateUse]

def isSpaceSeparator : CharClass := fun c =>
  isSeparator c && c.toNat != 0x2028 && c.toNat != 0x2029

/-- General categories by their short and long names, in small letters without separators. -/
def categories : List (List String × CharClass) :=
  [(["l", "letter"], isLetter),
   (["lu", "uppercaseletter"], isUppercaseLetter),
   (["ll", "lowercaseletter"], isLowercaseLetter),
   (["lt", "titlecaseletter"], inCategory "Lt"),
   (["lc", "casedletter"], anyOf [isUppercaseLetter, isLowercaseLetter, inCategory "Lt"]),
   (["lm", "modifierletter"], inCategory "Lm"),
   (["lo", "otherletter"], fun c => isLetter c &&
      !(isUppercaseLetter c || isLowercaseLetter c || inCategory "Lt" c || inCategory "Lm" c)),
   (["m", "mark", "combiningmark"], isMark),
   (["mn", "nonspacingmark"], fun c => isMark c && !inCategory "Mc" c && !inCategory "Me" c),
   (["mc", "spacingmark"], inCategory "Mc"),
   (["me", "enclosingmark"], inCategory "Me"),
   (["n", "number"], isNumeric),
   (["nd", "decimalnumber", "digit"], isDecimalDigit),
   (["nl", "letternumber"], inCategory "Nl"),
   (["no", "othernumber"], fun c => isNumeric c && !isDecimalDigit c && !inCategory "Nl" c),
   (["p", "punctuation", "punct"], isPunctuation),
   (["pc", "connectorpunctuation"], inCategory "Pc"),
   (["pd", "dashpunctuation"], inCategory "Pd"),
   (["ps", "openpunctuation"], inCategory "Ps"),
   (["pe", "closepunctuation"], inCategory "Pe"),
   (["pi", "initialpunctuation"], inCategory "Pi"),
   (["pf", "finalpunctuation"], inCategory "Pf"),
   (["po", "otherpunctuation"], inCategory "Po"),
   (["s", "symbol"], isSymbol),
   (["sm", "mathsymbol"], inCategory "Sm"),
   (["sc", "currencysymbol"], inCategory "Sc"),
   (["sk", "modifiersymbol"], inCategory "Sk"),
   (["so", "othersymbol"], inCategory "So"),
   (["z", "separator"], isSeparator),
   (["zs", "spaceseparator"], isSpaceSeparator),
   (["zl", "lineseparator"], fun c => c.toNat == 0x2028),
   (["zp", "paragraphseparator"], fun c => c.toNat == 0x2029),
   (["c", "other"], fun c => isControl c || inCategory "Cf" c || isPrivateUse c || !isAssigned c),
   (["cc", "control", "cntrl"], isControl),
   (["cf", "format"], inCategory "Cf"),
   (["co", "privateuse"], isPrivateUse),
   (["cn", "unassigned"], fun c => !isAssigned c)]

def binaryProperties : List (List String × CharClass) :=
  [(["any"], fun _ => true),
   (["ascii"], isAscii),
   (["assigned"], isAssigned),
   (["alphabetic", "alpha"], isAlphabetic),
   (["lowercase", "lower"], isLowercase),
   (["uppercase", "upper"], isUppercase),
   (["whitespace", "wspace", "space"], isWhitespace),
   (["idstart", "ids", "xidstart", "xids"], fun c =>
      isIdentifierStart c && c != '$' && c != '_'),
   (["idcontinue", "idc", "xidcontinue", "xidc"], fun c => isIdentifierPart c && c != '$')]

def lookupNames (table : List (List String × CharClass)) (name : String) : Option CharClass :=
  (table.find? (·.1.contains name)).map (·.2)

def script? (name : String) : Option CharClass := do
  let ranges ← scriptRanges.lookup name
  return fun c => inRanges ranges c.toNat

/-- A name without case, separators and an `is` that it begins with. -/
def looseName (name : String) : String :=
  let letters := (lowerAscii name).toList
  let plain (cs : List Char) : List Char :=
    cs.filter fun c => c != ' ' && c != '_' && c != '-' && isAscii c
  match dropBeginning? ['i', 's'] letters with
  | some rest =>
    let name := plain rest
    String.ofList (if name == ['c'] then plain letters else name)
  | none => String.ofList (plain letters)

/-- The class of a property given by its name, or by the name of a property and a value of it. -/
def property? (name : String) (value : Option String) : Option CharClass :=
  match value with
  | none =>
    let name := looseName name
    (lookupNames categories name).or ((lookupNames binaryProperties name).or (script? name))
  | some value =>
    let name := looseName name
    let value := looseName value
    if name == "gc" || name == "generalcategory" then
      (lookupNames categories value).or
        (if ["any", "ascii", "assigned"].contains value then lookupNames binaryProperties value
         else none)
    else if ["sc", "script", "scx", "scriptextensions"].contains name then script? value
    else none

end TypedRoutes.Pattern
