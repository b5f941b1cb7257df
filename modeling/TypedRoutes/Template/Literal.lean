import TypedRoutes.Text.Basic

/-! # Quoted literals of the generated code

A text between single or double quotes is escaped so that it ends at its closing quote and takes
one line.
-/

namespace TypedRoutes.Template
open TypedRoutes.Text

def escapeLiteralChar (c : Char) : List Char :=
  match c with
  | '\\' => ['\\', '\\']
  | '\'' => ['\\', '\'']
  | '"' => ['\\', '"']
  | '\n' => ['\\', 'n']
  | '\r' => ['\\', 'r']
  | '\t' => ['\\', 't']
  | c => [c]

def escapeLiteral (s : String) : String := mapToText escapeLiteralChar s

end TypedRoutes.Template
