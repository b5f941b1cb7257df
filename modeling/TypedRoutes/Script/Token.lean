/-! # Tokens of a script module

A token carries only what some reader of the syntax needs: the spelling of a word, the value of a
string literal, the spelling of a punctuator.  Literals whose value nobody asks for carry nothing.
-/

namespace TypedRoutes.Script

/-- A half-open interval of character positions in the text of a module. -/
structure Span where
  start : Nat
  stop : Nat
  deriving DecidableEq, Repr

def Span.slice (s : Span) (text : List Char) : List Char :=
  (text.drop s.start).take (s.stop - s.start)

inductive Token
  /-- An identifier or keyword; a word written with an escape is never a keyword. -/
  | word (name : String) (escaped : Bool)
  | privateName (name : String)
  | string (value : String)
  | number
  | bigint
  /-- A punctuator, known by its spelling; a closing angle bracket is always read alone. -/
  | punct (spelling : String)
  | regex
  | endOfText
  /-- Text that begins no token; no rule of the grammar accepts it. -/
  | invalid
  deriving DecidableEq, Repr

def reservedWords : List String :=
  ["break", "case", "catch", "class", "const", "continue", "debugger", "default", "delete", "do",
   "else", "enum", "export", "extends", "false", "finally", "for", "function", "if", "import",
   "in", "instanceof", "new", "null", "return", "super", "switch", "this", "throw", "true", "try",
   "typeof", "var", "void", "while", "with"]

/-- Words that the strict mode of modules keeps from being used as expressions. -/
def strictWords : List String :=
  ["implements", "package", "protected", "interface", "private", "public", "yield", "await"]

def isReserved (name : String) : Bool := reservedWords.contains name

def isReference (name : String) : Bool := !isReserved name && !strictWords.contains name

/-- Punctuators, a longer one before each that begins it. -/
def punctuators : List String :=
  ["...", "=>", "===", "==", "=", "!==", "!=", "!", "**=", "**", "*=", "*", "+=", "++", "+", "-=",
   "--", "-", "<<=", "<<", "<=", "<", ">", "&&=", "&&", "&=", "&", "||=", "||", "|=", "|", "^=",
   "^", "??=", "??", "?.", "?", "~", "%=", "%", "/=", "/", "\x7b", "\x7d", "(", ")", "[", "]",
   ";", ",", ":", ".", "@", "\x60"]

/-- What a closing angle bracket stands for in an expression, the longest first. -/
def closingAngles : List String := [">>>=", ">>>", ">>=", ">>", ">=", ">"]

end TypedRoutes.Script
