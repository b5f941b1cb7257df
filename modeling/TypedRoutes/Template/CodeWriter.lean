import TypedRoutes.Text.Basic

/-! # Writing code at a depth -/

namespace TypedRoutes.Template
open TypedRoutes.Text

structure CodeWriter where
  indent : String
  buffer : String := ""
  deriving DecidableEq, Repr

namespace CodeWriter

/-- A line at a depth, with its end; a line of whitespace only becomes empty. -/
def lineAt (w : CodeWriter) (depth : Nat) (line : String) : String :=
  (if isBlankText line then "" else repeatText depth w.indent ++ line) ++ "\n"

/-- Writes a text at a depth; the indentation its lines have among themselves is kept. -/
def write (w : CodeWriter) (depth : Nat) (text : String) : CodeWriter :=
  { w with buffer := w.buffer ++ String.join ((lines text).map (w.lineAt depth)) }

def isEmpty (w : CodeWriter) : Bool := w.buffer.isEmpty

end CodeWriter

end TypedRoutes.Template
