import TypedRoutes.Text.Character

/-! # Trimming, lines and words

Each operation is defined on lists of characters; the ones on strings only pack and unpack.
-/

namespace TypedRoutes.Text

/-- Drops the longest end of a list that satisfies `p`. -/
def dropEndWhile {α : Type} (p : α → Bool) (l : List α) : List α := (l.reverse.dropWhile p).reverse

def trimStartChars (cs : List Char) : List Char := cs.dropWhile isWhitespace

def trimEndChars (cs : List Char) : List Char := dropEndWhile isWhitespace cs

def trimChars (cs : List Char) : List Char := trimEndChars (trimStartChars cs)

def trimStart (s : String) : String := String.ofList (trimStartChars s.toList)

def trimEnd (s : String) : String := String.ofList (trimEndChars s.toList)

def trim (s : String) : String := String.ofList (trimChars s.toList)

def isBlankText (s : String) : Bool := s.toList.all isWhitespace

def dropEndChar (c : Char) (s : String) : String := String.ofList (dropEndWhile (· == c) s.toList)

/-- The pieces between the occurrences of a character; there is one more than occurrences. -/
def splitChars (separator : Char) : List Char → List (List Char)
  | [] => [[]]
  | c :: cs =>
    if c = separator then [] :: splitChars separator cs
    else
      match splitChars separator cs with
      | [] => [[c]]
      | piece :: pieces => (c :: piece) :: pieces

def splitOn (separator : Char) (s : String) : List String :=
  (splitChars separator s.toList).map String.ofList

def dropReturn (line : List Char) : List Char :=
  if line.getLast? = some '\r' then line.dropLast else line

/-- The lines of a text.  A line ends with a line feed, before which a carriage return may stand;
what follows the last line feed is a line of its own unless it is empty. -/
def linesOfChars (cs : List Char) : List (List Char) :=
  let pieces := splitChars '\n' cs
  let last := pieces.getLast?.getD []
  pieces.dropLast.map dropReturn ++ (if last.isEmpty then [] else [last])

def lines (s : String) : List String := (linesOfChars s.toList).map String.ofList

/-- The words of a text: its longest runs without whitespace. -/
def words : List Char → List (List Char)
  | [] => []
  | c :: cs =>
    if isWhitespace c then words cs
    else
      match cs with
      | [] => [[c]]
      | d :: _ =>
        if isWhitespace d then [c] :: words cs
        else
          match words cs with
          | [] => [[c]]
          | w :: ws => (c :: w) :: ws

def join (separator : String) (parts : List String) : String := separator.intercalate parts

def mapToText (f : Char → List Char) (s : String) : String := String.ofList (s.toList.flatMap f)

def repeatText (n : Nat) (s : String) : String := String.join (List.replicate n s)

def lowerAscii (s : String) : String := String.ofList (s.toList.map Char.toLower)

def dropBeginning? (beginning : List Char) (text : List Char) : Option (List Char) :=
  if beginning.isPrefixOf text then some (text.drop beginning.length) else none

def beginsWith (beginning text : String) : Bool := beginning.toList.isPrefixOf text.toList

def endsWith (ending text : String) : Bool := ending.toList.reverse.isPrefixOf text.toList.reverse

def containsChars (part : List Char) : List Char → Bool
  | [] => part.isEmpty
  | c :: cs => part.isPrefixOf (c :: cs) || containsChars part cs

def containsText (part text : String) : Bool := containsChars part.toList text.toList

end TypedRoutes.Text
