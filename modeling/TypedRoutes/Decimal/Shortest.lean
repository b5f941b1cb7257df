/-! # Shortest decimals of binary fractions

A double stands for an interval of reals, those nearer to it than to any other double.  Its
shortest decimal is the one with the fewest digits in that interval, and among those the nearest.
Everything is decided in natural numbers.
-/

namespace TypedRoutes.Decimal

/-- A positive number `mantissa * 2 ^ exponent`. -/
structure Binary where
  mantissa : Nat
  exponent : Int
  /-- The mantissa is the least of its exponent, so the next number below is half as far away. -/
  atPowerOfTwo : Bool
  deriving DecidableEq, Repr

structure Digits where
  digits : Nat
  exponent : Int
  deriving DecidableEq, Repr

def Binary.ofFields (biased fraction : Nat) : Binary :=
  if biased = 0 then ⟨fraction, -1074, false⟩
  else ⟨fraction + Nat.pow 2 52, Int.ofNat biased - 1075, fraction = 0 && biased > 1⟩

def powerFraction (base : Nat) (exponent : Int) : Nat × Nat :=
  if exponent ≥ 0 then (Nat.pow base exponent.toNat, 1) else (1, Nat.pow base (-exponent).toNat)

/-- A fraction in quarters of the mantissa's unit, over a power of ten: `quarters * 2 ^ (exponent -
2) / 10 ^ place`. -/
def Binary.scaled (b : Binary) (quarters : Nat) (place : Int) : Nat × Nat :=
  let (a, c) := powerFraction 2 (b.exponent - 2)
  let (p, q) := powerFraction 10 place
  (quarters * a * q, c * p)

/-- The ends of the interval that a number stands for, in quarters of its unit. -/
def Binary.lowQuarters (b : Binary) : Nat := 4 * b.mantissa - (if b.atPowerOfTwo then 1 else 2)

def Binary.highQuarters (b : Binary) : Nat := 4 * b.mantissa + 2

/-- A multiple of a power of ten lies in the interval; its ends belong to it for an even
mantissa. -/
def Binary.holds (b : Binary) (multiple : Nat) (place : Int) : Bool :=
  let (low, d) := b.scaled b.lowQuarters place
  let (high, _) := b.scaled b.highQuarters place
  if b.mantissa % 2 = 0 then low ≤ multiple * d && multiple * d ≤ high
  else low < multiple * d && multiple * d < high

def Binary.nearestMultiple (b : Binary) (place : Int) : Option Nat :=
  let (n, d) := b.scaled (4 * b.mantissa) place
  let below := n / d
  match b.holds below place && below > 0, b.holds (below + 1) place with
  | true, false => some below
  | false, true => some (below + 1)
  | false, false => none
  | true, true =>
    let rest := n % d
    if 2 * rest < d || (2 * rest = d && below % 2 = 0) then some below else some (below + 1)

/-- The place of the leading digit of a fraction, at most `steps` places below the units. -/
def leadingPlace (numerator denominator : Nat) (steps : Nat) : Int :=
  if numerator ≥ denominator then
    Int.ofNat (Nat.toDigits 10 (numerator / denominator)).length - 1
  else
    match (List.range steps).find? fun j => numerator * Nat.pow 10 (j + 1) ≥ denominator with
    | some j => -(Int.ofNat j + 1)
    | none => -(Int.ofNat steps)

def Digits.trim (d : Digits) : Nat → Digits
  | 0 => d
  | n + 1 =>
    if d.digits ≠ 0 && d.digits % 10 = 0 then
      Digits.trim ⟨d.digits / 10, d.exponent + 1⟩ n
    else d

/-- The shortest decimal that stands for the same double. -/
def Binary.shortest (b : Binary) : Digits :=
  let (n, d) := b.scaled (4 * b.mantissa) 0
  let place := leadingPlace n d 330
  let found := (List.range 18).findSome? fun k =>
    let at' := place - Int.ofNat k
    (b.nearestMultiple at').map fun m => Digits.mk m at'
  match found with
  | some digits => digits.trim 20
  | none => ⟨0, 0⟩

def digitChars (n : Nat) : List Char := Nat.toDigits 10 n

end TypedRoutes.Decimal
