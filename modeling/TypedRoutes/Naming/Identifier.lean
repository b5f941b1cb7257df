import TypedRoutes.Text.Basic

/-! # Identifiers and exported declarations -/

namespace TypedRoutes.Naming
open TypedRoutes.Text

def isPlainIdentifierCharacter (c : Char) : Bool :=
  isAscii c && (c.isAlphanum || c == '_' || c == '$')

def identifierChars (name : List Char) : List Char :=
  let kept := name.map fun c => if isPlainIdentifierCharacter c then c else '_'
  match kept with
  | [] => ['_']
  | c :: _ => if c.isDigit then '_' :: kept else kept

/-- An identifier for any name: what cannot stand in one becomes an underscore, and an underscore
goes before a leading digit. -/
def toIdentifier (name : String) : String := String.ofList (identifierChars name.toList)

/-- A declaration that can be reached from outside the namespace it stands in. -/
def exportedDeclaration (declaration : String) : String :=
  let text := trim declaration
  if beginsWith "export " text then text else "export " ++ text

end TypedRoutes.Naming
