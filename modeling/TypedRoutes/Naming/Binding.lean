import TypedRoutes.Text.Basic

/-! # Names bound at the top of a module's text

Only what begins in the first column is looked at: the clause of an import, and the name after a
declaring keyword.  Both are found on the text itself, since a template need not be well formed.
-/

namespace TypedRoutes.Naming
open TypedRoutes.Text

/-- What a reader finds at the line starts of a text, the finds not overlapping.  The reader gives
a value with the number of characters it takes; `skip` characters of the text are taken already. -/
def scanLineStarts {α : Type} (read : List Char → Option (α × Nat)) (atStart : Bool) (skip : Nat) :
    List Char → List α
  | [] => []
  | c :: cs =>
    if skip > 0 then scanLineStarts read (c = '\n') (skip - 1) cs
    else
      match if atStart then read (c :: cs) else none with
      | some (a, n) => a :: scanLineStarts read (c = '\n') (n - 1) cs
      | none => scanLineStarts read (c = '\n') 0 cs

/-! ## Imports -/

def fromLength? (text : List Char) : Option Nat := do
  let blanks := text.takeWhile isWhitespace
  if blanks.isEmpty then none
  let rest ← dropBeginning? "from".toList (text.drop blanks.length)
  match rest with
  | c :: _ => if isWhitespace c then some (blanks.length + 5) else none
  | [] => none

def isClauseCharacter (c : Char) : Bool := c != '\'' && c != '"' && c != ';'

/-- The shortest nonempty clause that `from` follows, and the length of both. -/
def shortestClause : List Char → Option (List Char × Nat)
  | [] => none
  | c :: cs =>
    if isClauseCharacter c then
      match fromLength? cs with
      | some n => some ([c], n + 1)
      | none => (shortestClause cs).map fun (clause, n) => (c :: clause, n + 1)
    else none

/-- Ways to leave out some of the whitespace before a text, the longest first, at least one
character; each with its length. -/
def blankStarts (text : List Char) : List (Nat × List Char) :=
  let n := (text.takeWhile isWhitespace).length
  (List.range n).reverse.map fun k => (k + 1, text.drop (k + 1))

/-- Where the clause of an import may begin after its keyword, in order of preference: after the
word `type` before after none, and after more whitespace before after less. -/
def clauseStarts (text : List Char) : List (Nat × List Char) :=
  (blankStarts text).flatMap fun (n, rest) =>
    let typeOnly :=
      match dropBeginning? "type".toList rest with
      | some rest => (blankStarts rest).map fun (m, rest) => (n + 4 + m, rest)
      | none => []
    typeOnly ++ [(n, rest)]

def importClause? (text : List Char) : Option (List Char × Nat) := do
  let rest ← dropBeginning? "import".toList text
  (clauseStarts rest).findSome? fun (n, start) =>
    (shortestClause start).map fun (clause, m) => (clause, 6 + n + m)

/-- The names that an import clause binds: the last word of each of its parts. -/
def clauseNames (clause : List Char) : List String :=
  let parts := splitChars ',' (clause.map fun c => if c = '\x7b' || c = '\x7d' then ',' else c)
  parts.filterMap fun part => (words part).getLast?.map String.ofList

/-! ## Declarations -/

def wordAndBlanks (word : String) (text : List Char) : Option (Nat × List Char) := do
  let rest ← dropBeginning? word.toList text
  let n := (rest.takeWhile isWhitespace).length
  if n = 0 then none else some (word.length + n, rest.drop n)

/-- The same, where the word may also be missing. -/
def optionalWord (word : String) (text : List Char) : Nat × List Char :=
  (wordAndBlanks word text).getD (0, text)

def declaringWords : List String :=
  ["const", "let", "var", "function*", "function", "class", "type", "interface", "enum",
   "namespace"]

def isNameStart (c : Char) : Bool := isAscii c && (c.isAlpha || c == '_' || c == '$')

def isNamePart (c : Char) : Bool := isWordCharacter c || c == '$'

/-- The name declared at the head of a text, and how much of the text leads up to its end. -/
def declaredName? (text : List Char) : Option (String × Nat) := do
  let (a, rest) :=
    match wordAndBlanks "export" text with
    | none => (0, text)
    | some (n, rest) =>
      let (m, rest) := optionalWord "default" rest
      (n + m, rest)
  let (b, rest) := optionalWord "declare" rest
  let (c, rest) := optionalWord "async" rest
  let (d, rest) ← declaringWords.findSome? (wordAndBlanks · rest)
  match rest with
  | first :: _ =>
    if isNameStart first then
      let name := rest.takeWhile isNamePart
      some (String.ofList name, a + b + c + d + name.length)
    else none
  | [] => none

/-- The names bound at the top of a text: those of its imports, then those it declares. -/
def topLevelBindings (source : String) : List String :=
  let text := source.toList
  (scanLineStarts importClause? true 0 text).flatMap clauseNames ++
    scanLineStarts declaredName? true 0 text

end TypedRoutes.Naming
