import TypedRoutes.Error
import TypedRoutes.Pattern.Parser

/-! # What is left out of a tree -/

namespace TypedRoutes.Route
open TypedRoutes.Pattern

/-- Paths that are left out: those which a pattern matches somewhere. -/
structure Exclusion where
  patterns : List Pattern

namespace Exclusion

def covers (x : Exclusion) (path : String) : Bool := x.patterns.any (·.matchesIn path)

def exactly (c : Char) : Pattern := .class fun d => d == c

/-- The place before the first name of a path, or after the slash before another one. -/
def nameStart : Pattern := .choice (.anchor .textStart false) (exactly '/')

/-- Leaves out what begins with a dot, and packages: `(^|/)\.` and `(^|/)node_modules$`. -/
def standard : Exclusion where
  patterns :=
    [.sequence nameStart (exactly '.'),
     .sequence nameStart
      ("node_modules".toList.foldr (fun c p => .sequence (exactly c) p) (.anchor .textEnd false))]

def readPattern (text : String) : Except ConfigFault Pattern :=
  match Pattern.ofText? text with
  | some p => .ok p
  | none =>
    .error (.invalid ("invalid exclude pattern '" ++ text ++ "': the pattern is not well formed"))

/-- The exclusion by given patterns; the first that is not well formed is the fault. -/
def ofTexts (texts : List String) : Except ConfigFault Exclusion := do
  return ⟨← texts.mapM readPattern⟩

end Exclusion

end TypedRoutes.Route
