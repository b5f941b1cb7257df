import TypedRoutes.Text.Basic

/-! # Renaming a declared type

A declaration mentions the name it introduces, and the same spelling may also occur in it as a
property key, as a member or in quoted text.  Renaming replaces whole words only and leaves those
three alone.
-/

namespace TypedRoutes.Naming
open TypedRoutes.Text

def isWordBoundary (before after : Option Char) : Bool :=
  before.any isWordCharacter != after.any isWordCharacter

/-- The name stands at the head of the text as a whole word, after the given character. -/
def standsAt (name : List Char) (before : Option Char) (text : List Char) : Bool :=
  name.isPrefixOf text && isWordBoundary before text.head? &&
    isWordBoundary (name.getLast?.or before) (text.drop name.length).head?

/-- An occurrence between the given character and text is no reference to a type: a member, quoted
text or a property key. -/
def isKept (before : Option Char) (after : List Char) : Bool :=
  (before.any fun c => ['.', '\'', '"', '\x60'].contains c) ||
    [':'].isPrefixOf (trimStartChars after) || ['?', ':'].isPrefixOf (trimStartChars after)

/-- Renames in a text that follows a character; `skip` characters of it belong to an occurrence
already dealt with. -/
def renameFrom (name replacement : List Char) (before : Option Char) (skip : Nat) :
    List Char → List Char
  | [] =>
    if skip = 0 && standsAt name before [] then
      if isKept before [] then name else replacement
    else []
  | c :: cs =>
    if skip > 0 then renameFrom name replacement (some c) (skip - 1) cs
    else if standsAt name before (c :: cs) then
      let occurrence :=
        if isKept before ((c :: cs).drop name.length) then name else replacement
      if name.isEmpty then occurrence ++ c :: renameFrom name replacement (some c) 0 cs
      else occurrence ++ renameFrom name replacement (some c) (name.length - 1) cs
    else c :: renameFrom name replacement (some c) 0 cs

/-- A declaration with the type it declares, and its references to itself, under another name. -/
def renameDeclaredType (declaration name replacement : String) : String :=
  if name = replacement then declaration
  else String.ofList (renameFrom name.toList replacement.toList none 0 declaration.toList)

end TypedRoutes.Naming
