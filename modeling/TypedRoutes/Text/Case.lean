import TypedRoutes.Text.Character
import TypedRoutes.Text.Property.Lowering
import TypedRoutes.Text.Property.Raising

/-! # Upper and lower case

A character's other case may be several characters.
-/

namespace TypedRoutes.Text

/-- The code point that a table of runs maps to, if one of them holds the given one. -/
def mapByRuns (table : Array (Nat × Nat × Nat × Int)) (n : Nat) : Option Nat := do
  let (_, _, _, offset) ← table.find? fun (first, last, stride, _) =>
    first ≤ n && n ≤ last && (n - first) % stride == 0
  return (Int.ofNat n + offset).toNat

/-- The case form of a character according to two tables; a character in neither is its own. -/
def mapByTables (sequences : Array (Nat × List Nat)) (runs : Array (Nat × Nat × Nat × Int))
    (c : Char) : List Char :=
  match sequences.find? (·.1 == c.toNat) with
  | some (_, form) => form.map Char.ofNat
  | none => [((mapByRuns runs c.toNat).map Char.ofNat).getD c]

def upperForm (c : Char) : List Char :=
  if isAscii c then [c.toUpper] else mapByTables uppercaseSequences uppercaseMappingRuns c

def lowerForm (c : Char) : List Char :=
  if isAscii c then [c.toLower] else mapByTables lowercaseSequences lowercaseMappingRuns c

/-- A word in lower case; a capital sigma at its end takes its final form. -/
def lowerWord : List Char → List Char
  | [] => []
  | [c] => if c = 'Σ' then ['ς'] else lowerForm c
  | c :: cs => lowerForm c ++ lowerWord cs

def capitalizeWord : List Char → List Char
  | [] => []
  | c :: cs => upperForm c ++ lowerWord cs

end TypedRoutes.Text
