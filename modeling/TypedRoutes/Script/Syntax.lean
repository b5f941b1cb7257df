import TypedRoutes.Script.Parser

/-! # What is kept of a module's syntax

Handlers are described by their signatures and by the types around them.  Of everything else the
grammar only decides whether it is well formed, so nothing of it is kept: an expression leaves the
few facts that decide what may follow it, and most statements leave nothing.
-/

namespace TypedRoutes.Script

inductive TypeNode where
  /-- The entity's names, first to last, and its type arguments if a list of them is written. -/
  | reference (span : Span) (path : List String) (arguments : Option (List TypeNode))
  | other (span : Span)
  deriving Repr

def TypeNode.span : TypeNode → Span
  | .reference s _ _ => s
  | .other s => s

inductive Binding where
  | identifier (name : String)
  | destructuring
  deriving DecidableEq, Repr

structure Parameter where
  binding : Binding
  annotation : Option TypeNode
  hasDefault : Bool := false
  isRest : Bool := false

structure Signature where
  parameters : List Parameter
  returns : Option TypeNode
  hasBody : Bool

inductive ImportSpecifier where
  | named (imported localName : String)
  | whole (localName : String)
  | default (localName : String)
  deriving DecidableEq, Repr

/-- What an expression is, as far as the text around it cares. -/
inductive Shape where
  | identifier (name : String)
  | arrow
  /-- An object or array literal; whether it may be read as a binding pattern. -/
  | literal (patternable : Bool)
  /-- A member, a call's result seen as another type, or anything else that can be assigned. -/
  | place
  | optionalChain
  | parenthesized
  | bareConstruction
  /-- A prefix operator or `await` with its operand. -/
  | unary
  /-- A conditional, a binary operation or an update. -/
  | operation
  | other
  deriving DecidableEq, Repr

def Shape.isPatternable : Shape → Bool
  | .literal patternable => patternable
  | _ => true

def Shape.isAssignable : Shape → Bool
  | .identifier _ | .place | .optionalChain | .parenthesized => true
  | _ => false

inductive Item where
  | importFrom (source : String) (specifiers : List ImportSpecifier)
  /-- An interface, a type alias or an enumeration, with the text that declares it. -/
  | typeDeclaration (name : String) (span : Span)
  | function (name : String) (signature : Signature)
  | defaultFunction (name : Option String) (signature : Signature)
  | defaultClass
  | defaultExpression (shape : Shape)
  | exportNames (names : List String)
  | other

/-- A nonterminal that the grammar reaches again from below itself. -/
inductive Goal where
  | type
  | typeOperator
  | assignment
  | unary
  | operators (left : Shape) (strength : Nat)
  /-- An operand without prefix or postfix operators; what follows `new` takes no call. -/
  | leftHandSide (calls : Bool)
  | element
  | binding
  | statement
  | moduleItem

@[reducible] def Goal.Result : Goal → Type
  | .type | .typeOperator => TypeNode
  | .assignment | .unary | .operators _ _ | .leftHandSide _ => Shape
  | .element => Unit
  | .binding => Binding
  | .statement | .moduleItem => Item

/-- The grammar one level down: how each goal is read by a rule that meets it again. -/
structure Recursion where
  read : (goal : Goal) → Parser goal.Result

namespace Recursion
variable (r : Recursion)

def type : Parser TypeNode := r.read .type
def typeOperator : Parser TypeNode := r.read .typeOperator
def assignment : Parser Shape := r.read .assignment
def unary : Parser Shape := r.read .unary
def operators (left : Shape) (strength : Nat) : Parser Shape := r.read (.operators left strength)
def leftHandSide (calls : Bool) : Parser Shape := r.read (.leftHandSide calls)
def element : Parser Unit := r.read .element
def binding : Parser Binding := r.read .binding
def statement : Parser Item := r.read .statement
def moduleItem : Parser Item := r.read .moduleItem

end Recursion

end TypedRoutes.Script
