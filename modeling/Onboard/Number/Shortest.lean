import Onboard.Number.Format

/-!
The fewest decimal digits that read back as a given magnitude, and of those the nearest. The real numbers that
round to the magnitude form an interval; grids of one digit, two digits and so on are tried until the grid has a
point in it.
-/

namespace Onboard

structure Decimal where
  digits : Nat
  exponent : Int
  deriving DecidableEq, Repr

namespace Decimal

/-- What is chosen when two grid points are equally near. -/
inductive Tie where
  | even
  | up
  deriving DecidableEq, Repr

/-- The real numbers that round to one magnitude, as multiples `low`, `mid`, `high` of `num / den`. -/
structure Interval where
  low : Nat
  mid : Nat
  high : Nat
  num : Nat
  den : Nat
  closed : Bool

/-- Half the gap to each neighbour; the gap below a power of two is half the gap above it. -/
def Interval.of (f : BinaryFormat) (magnitude : Nat) : Interval :=
  let s := f.decode magnitude
  let lower := if s.coefficient = 1 <<< (f.precision - 1) ∧ f.minExponent < s.exponent then 1 else 2
  let unit := unscale 1 1 (2 - s.exponent)
  ⟨4 * s.coefficient - lower, 4 * s.coefficient, 4 * s.coefficient + 2, unit.1, unit.2, s.coefficient % 2 = 0⟩

def Interval.contains (i : Interval) (point : Nat) (exponent : Int) : Bool :=
  let p := point * (if 0 ≤ exponent then Nat.pow 10 exponent.toNat else 1) * i.den
  let s := if 0 ≤ exponent then 1 else Nat.pow 10 (-exponent).toNat
  let low := i.low * i.num * s
  let high := i.high * i.num * s
  if i.closed then low ≤ p && p ≤ high else low < p && p < high

/-- The grid `10 ^ exponent` has at most two points next to the number itself. -/
def Interval.nearest (i : Interval) (tie : Tie) (exponent : Int) : Option Nat :=
  let num := i.mid * i.num * (if 0 ≤ exponent then 1 else Nat.pow 10 (-exponent).toNat)
  let den := i.den * (if 0 ≤ exponent then Nat.pow 10 exponent.toNat else 1)
  let below := num / den
  let best := match tie with
    | .even => roundHalfEven num den
    | .up => roundHalfUp num den
  let other := if best = below then below + 1 else below
  if i.contains best exponent then some best
  else if i.contains other exponent then some other
  else none

/-- Tries the grids from `10 ^ exponent` downwards. -/
def Interval.search (i : Interval) (tie : Tie) : (grids : Nat) → (exponent : Int) → Decimal
  | 0, exponent => ⟨i.mid * i.num * Nat.pow 10 (-exponent).toNat / i.den, exponent⟩
  | grids + 1, exponent =>
    match i.nearest tie exponent with
    | some (point + 1) => ⟨point + 1, exponent⟩
    | _ => i.search tie grids (exponent - 1)

/-- Removes zeros at the end, which count as no digits. -/
def strip : (fuel : Nat) → Decimal → Decimal
  | 0, d => d
  | fuel + 1, d => if d.digits ≠ 0 ∧ d.digits % 10 = 0 then strip fuel ⟨d.digits / 10, d.exponent + 1⟩ else d

/-- A power of ten above the number: `1233 / 4096` is a little more than the logarithm of two. -/
def firstGrid (s : Scaled) : Int :=
  ((s.coefficient.log2 + 1 : Int) + s.exponent) * 1233 / 4096 + 1

def shortest (f : BinaryFormat) (tie : Tie) (magnitude : Nat) : Decimal :=
  let i := Interval.of f magnitude
  strip 400 (i.search tie 22 (firstGrid (f.decode magnitude)))

def digitList (n : Nat) : List Char :=
  Nat.toDigits 10 n

end Decimal

end Onboard
