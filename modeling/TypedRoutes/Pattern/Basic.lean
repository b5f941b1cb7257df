import TypedRoutes.Pattern.Property
import TypedRoutes.Text.Case

/-! # Patterns

A pattern denotes, for a text and a position in it, the positions where a match may end.  That is
computed for sets of positions at once, so repetition needs no backtracking.
-/

namespace TypedRoutes
open TypedRoutes.Text

namespace Pattern

inductive Anchor where
  | textStart
  | textEnd
  | lineStart
  | lineEnd
  /-- As the start of a line, where a carriage return ends lines too. -/
  | returnedLineStart
  | returnedLineEnd
  | wordBoundary
  | noWordBoundary
  | wordStart
  | wordEnd
  | wordStartHalf
  | wordEndHalf
  deriving DecidableEq, Repr

end Pattern

open Pattern in
/-- A condition on the characters from some position on, together with where they may end. -/
inductive Pattern where
  | empty
  | class (members : CharClass)
  /-- A condition on a position, with words of ASCII alone or of all characters. -/
  | anchor (a : Anchor) (ascii : Bool)
  | sequence (first second : Pattern)
  | choice (first second : Pattern)
  | repetition (body : Pattern) (least : Nat) (most : Option Nat)

namespace Pattern

def around (text : Array Char) (i : Nat) : Option Char × Option Char :=
  (if i = 0 then none else text[i - 1]?, text[i]?)

def Anchor.holds (a : Anchor) (ascii : Bool) (text : Array Char) (i : Nat) : Bool :=
  let (before, after) := around text i
  let inWord (c : Char) : Bool := isWordCharacter c && (!ascii || isAscii c)
  let wordBefore := before.any inWord
  let wordAfter := after.any inWord
  match a with
  | textStart => i == 0
  | textEnd => i == text.size
  | lineStart => before.all (· == '\n')
  | lineEnd => after.all (· == '\n')
  | returnedLineStart =>
    before.all fun c => c == '\n' || (c == '\r' && after != some '\n')
  | returnedLineEnd =>
    after.all fun c => c == '\r' || (c == '\n' && before != some '\r')
  | wordBoundary => wordBefore != wordAfter
  | noWordBoundary => wordBefore == wordAfter
  | wordStart => !wordBefore && wordAfter
  | wordEnd => wordBefore && !wordAfter
  | wordStartHalf => !wordBefore
  | wordEndHalf => !wordAfter

def union (a b : List Nat) : List Nat := a ++ b.filter (!a.contains ·)

def iterateStep (step : List Nat → List Nat) : Nat → List Nat → List Nat
  | 0, starts => starts
  | n + 1, starts => if starts.isEmpty then [] else iterateStep step n (step starts)

/-- The positions reached by applying a step up to so many times; stops when nothing is new. -/
def closure (step : List Nat → List Nat) : Nat → List Nat → List Nat → List Nat
  | 0, _, reached => reached
  | n + 1, fresh, reached =>
    let new := (step fresh).filter (!reached.contains ·)
    if new.isEmpty then reached else closure step n new (union reached new)

/-- Where matches end that begin at one of the given positions.  In a text of `n` characters at most
`n` rounds of a repetition pass one; further rounds pass none and can be left out. -/
def ends (text : Array Char) : Pattern → List Nat → List Nat
  | empty, starts => starts
  | .class members, starts =>
    (starts.filter fun i => (text[i]?).any members).map (· + 1)
  | anchor a ascii, starts => starts.filter (a.holds ascii text)
  | sequence p q, starts => q.ends text (p.ends text starts)
  | choice p q, starts => union (p.ends text starts) (q.ends text starts)
  | repetition p least most, starts =>
    let first := iterateStep (p.ends text) (min least (text.size + 1)) starts
    let rounds :=
      match most with
      | some m => min (m - least) (text.size + 1)
      | none => text.size + 1
    closure (p.ends text) rounds first first

def matchesIn (p : Pattern) (text : String) : Bool :=
  let chars := text.toList.toArray
  !(p.ends chars (List.range (chars.size + 1))).isEmpty

/-! ## Classes -/

/-- The single characters that a character's case forms consist of. -/
def caseVariants (c : Char) : List Char :=
  let single (cs : List Char) : List Char := if cs.length = 1 then cs else []
  let direct := single (lowerForm c) ++ single (upperForm c)
  direct ++ direct.flatMap fun d => single (lowerForm d) ++ single (upperForm d)

def foldCase (members : CharClass) : CharClass := fun c =>
  members c || (caseVariants c).any members

end Pattern

end TypedRoutes
