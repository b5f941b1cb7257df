/-! # Names without collisions

The first claim of a name gets it as it is, and the n-th gets it with `_n` after it.
-/

namespace TypedRoutes.Naming

/-- How often each name has been claimed. -/
structure Registry where
  counts : List (String × Nat) := []
  deriving Repr

namespace Registry

def empty : Registry := {}

def occurrences (r : Registry) (name : String) : Nat := (r.counts.lookup name).getD 0

def setCount (r : Registry) (name : String) (n : Nat) : Registry :=
  ⟨(name, n) :: r.counts.filter (·.1 != name)⟩

/-- A registry in which the given names are taken once. -/
def reserving (names : List String) : Registry :=
  names.foldl (fun r name => if r.occurrences name = 0 then r.setCount name 1 else r) empty

def suffixed (name : String) (n : Nat) : String :=
  if n ≤ 1 then name else name ++ "_" ++ toString n

def claim (r : Registry) (name : String) : String × Registry :=
  let n := r.occurrences name + 1
  (suffixed name n, r.setCount name n)

end Registry

end TypedRoutes.Naming
