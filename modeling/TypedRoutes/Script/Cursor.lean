import TypedRoutes.Script.Lexer

/-! # Places in the text of a module

A cursor holds the token in front of a place.  It moves by reading the next token, or by passing a
number of characters that are no token; either way it never goes back.
-/

namespace TypedRoutes.Script

def Token.isName : Token → Bool
  | .word _ _ => true
  | _ => false

structure Cursor where
  lexeme : Lexeme
  previousStop : Nat

namespace Cursor

def ofText (text : List Char) : Cursor :=
  { lexeme := readToken 0 true text, previousStop := 0 }

def ofRest (position : Nat) (rest : List Char) : Cursor :=
  { lexeme := readToken position false rest, previousStop := position }

def next (c : Cursor) : Cursor := ofRest c.lexeme.stop c.lexeme.after

/-- The place after a number of characters from the token in front on. -/
def after (c : Cursor) (length : Nat) : Cursor :=
  ofRest (c.lexeme.start + length) (c.lexeme.here.drop length)

/-- The same place with its first `length` characters read as the given token. -/
def reread (c : Cursor) (token : Token) (length : Nat) : Cursor :=
  { c with lexeme := { c.lexeme with
      token, stop := c.lexeme.start + length, after := c.lexeme.here.drop length } }

/-- The ways from a cursor to another; what is read again is read as no word. -/
inductive Reaches : Cursor → Cursor → Prop where
  | here (c : Cursor) : Reaches c c
  | next (c : Cursor) : Reaches c c.next
  | after (c : Cursor) (length : Nat) : Reaches c (c.after length)
  | reread (c : Cursor) {token : Token} (plain : token.isName = false) (length : Nat) :
      Reaches c (c.reread token length)
  | trans {c c' c'' : Cursor} (first : Reaches c c') (rest : Reaches c' c'') : Reaches c c''

end Cursor

end TypedRoutes.Script
