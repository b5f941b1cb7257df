import TypedRoutes.Script.Grammar.Module

/-! # Reading a module

The grammar meets its own goals again from below, so it is a step from "every goal, one level
down" to "every goal".  Its levels are unrolled as deep as the text can nest.
-/

namespace TypedRoutes.Script
open TypedRoutes.Script.Parser TypedRoutes.Script.Grammar

/-- Reads each goal, given how goals are read one level down. -/
def Grammar.rule (r : Recursion) : (goal : Goal) → Parser goal.Result
  | .type => conditionalType r
  | .typeOperator => typeOperand r
  | .assignment => assignmentExpression r
  | .unary => unaryExpression r
  | .operators left strength => Grammar.operators r left strength
  | .leftHandSide calls => Grammar.leftHandSide r calls
  | .element => elementRest r
  | .binding => Grammar.binding r
  | .statement => Grammar.statement r
  | .moduleItem => Grammar.moduleItem r

/-- Reads a goal that contains no chain of nested goals longer than the depth. -/
def Grammar.atDepth : Nat → (goal : Goal) → Parser goal.Result
  | 0, _ => fail
  | depth + 1, goal => Grammar.rule ⟨Grammar.atDepth depth⟩ goal

def moduleItems (depth : Nat) : Parser (List Item) :=
  many do
    if (← token) == .endOfText then return none
    return some (← Grammar.atDepth depth .moduleItem)

def hashbangLength (text : List Char) : Nat :=
  match text with
  | '#' :: '!' :: rest => 2 + (rest.takeWhile (!isLineBreak ·)).length
  | _ => 0

/-- The items of a module's text, or nothing if it is not well formed.  Each level of nesting
takes some character and fewer than sixteen goals. -/
def readModule (dialect : Dialect) (text : List Char) : Option (List Item) :=
  let skipped := hashbangLength text
  let start : Cursor :=
    { lexeme := readToken skipped true (text.drop skipped), previousStop := skipped }
  let rounds := text.length + 2
  match (moduleItems (16 * rounds)).run { dialect, rounds } start with
  | .ok items _ => some items
  | .fail _ => none

end TypedRoutes.Script
