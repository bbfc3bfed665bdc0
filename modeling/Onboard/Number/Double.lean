import Onboard.Number.Format

/-!
Doubles as a sign and a magnitude, and the operations on them that are exact or correctly rounded: `ofRatio`,
`ofDecimal`, `round`, `ceil`, `hypot` and `exp`. Each is computed in integers from the bits.
-/

namespace Onboard.Double

def magnitude (x : Float) : Nat :=
  x.toBits.toNat % 0x8000000000000000

def isNegative (x : Float) : Bool :=
  0x8000000000000000 ≤ x.toBits.toNat

def ofParts (negative : Bool) (magnitude : Nat) : Float :=
  Float.ofBits (UInt64.ofNat (magnitude + if negative then 0x8000000000000000 else 0))

/-- The value without its sign; meant for finite numbers. -/
def scaled (x : Float) : Scaled :=
  BinaryFormat.double.decode (magnitude x)

def ofRatio (negative : Bool) (num den : Nat) : Float :=
  ofParts negative (BinaryFormat.double.roundRatio num den)

def ofDecimal (negative : Bool) (digits : Nat) (exponent : Int) : Float :=
  ofParts negative (BinaryFormat.double.roundDecimal digits exponent)

def ofNat (n : Nat) : Float :=
  ofRatio false n 1

def ofInt (n : Int) : Float :=
  ofRatio (n < 0) n.natAbs 1

def infinity : Float :=
  ofParts false BinaryFormat.double.infinity

def nan : Float :=
  0.0 / 0.0

/-- Replaces the magnitude of a number that has a fraction by an integer computed from
`coefficient / denominator`. -/
def mapFraction (whole : (num den : Nat) → Nat) (x : Float) : Float :=
  if x.isFinite then
    let s := scaled x
    if 0 ≤ s.exponent then x else ofRatio (isNegative x) (whole s.coefficient (1 <<< (-s.exponent).toNat)) 1
  else x

/-- The nearest integer, a half going away from zero. -/
def round (x : Float) : Float :=
  mapFraction roundHalfUp x

def ceil (x : Float) : Float :=
  mapFraction (fun num den => if isNegative x then num / den else (num + den - 1) / den) x

/-- The smaller of two numbers; a not-a-number gives way to the other operand. -/
def min (x y : Float) : Float :=
  if x.isNaN then y else if y.isNaN then x else if y < x then y else x

/-- The larger of two numbers; a not-a-number gives way to the other operand. -/
def max (x y : Float) : Float :=
  if x.isNaN then y else if y.isNaN then x else if x < y then y else x

/-- One bit of a square root at a time: keeps `root ^ 2 ≤ n` while `2 ^ bits` still fits below. -/
def sqrtFrom (n : Nat) : (bits root : Nat) → Nat
  | 0, root => root
  | bits + 1, root =>
    let next := root + 1 <<< bits
    sqrtFrom n bits (if next * next ≤ n then next else root)

def sqrtFloor (n : Nat) : Nat :=
  sqrtFrom n (n.log2 / 2 + 1) 0

/-- The exact root lies strictly between `root` and `root + 1` when the square is not `n`; doubling makes room for
an odd numerator that keeps the rounding on the right side. -/
def ofSqrt (n : Nat) (exponent : Int) : Float :=
  let guard : Nat := 64
  let square := n * Nat.pow 4 guard
  let root := sqrtFloor square
  let num := 2 * root + if root * root = square then 0 else 1
  let e := exponent - guard - 1
  let fraction := unscale num 1 (-e)
  ofRatio false fraction.1 fraction.2

/-- The length of the vector `(x, y)`, correctly rounded. An infinite component wins over a not-a-number. -/
def hypot (x y : Float) : Float :=
  if x.isInf || y.isInf then infinity
  else if x.isNaN || y.isNaN then nan
  else
    let a := scaled x
    let b := scaled y
    let e := if a.exponent ≤ b.exponent then a.exponent else b.exponent
    let c := a.coefficient <<< (a.exponent - e).toNat
    let d := b.coefficient <<< (b.exponent - e).toNat
    ofSqrt (c * c + d * d) e

/-- Fixed-point places used for the exponential. -/
def expPlaces : Nat := 320

/-- The exponential series at `t`, from the term `t ^ n / n!` on, all in fixed point. -/
def expSeries (t : Nat) : (steps n term : Nat) → Nat
  | 0, _, _ => 0
  | steps + 1, n, term => term + expSeries t steps (n + 1) ((term * t) >>> expPlaces / (n + 1))

def squareTimes : (times x : Nat) → Nat
  | 0, x => x
  | times + 1, x => squareTimes times ((x * x) >>> expPlaces)

/-- `e ^ x` for `x = coefficient * 2 ^ exponent` below 1024, in fixed point: the series at `x / 2 ^ 12`, squared
twelve times. -/
def expFixed (x : Scaled) : Nat :=
  let shift := x.exponent + expPlaces - 12
  let t := if 0 ≤ shift then x.coefficient <<< shift.toNat else x.coefficient >>> (-shift).toNat
  squareTimes 12 (expSeries t 80 0 (1 <<< expPlaces))

/-- The exponential, rounded to nearest from more than two hundred correct bits. -/
def exp (x : Float) : Float :=
  if x.isNaN then nan
  else if 1000.0 < x then infinity
  else if x < -1000.0 then 0.0
  else if isNegative x then ofRatio false (1 <<< expPlaces) (expFixed (scaled x))
  else ofRatio false (expFixed (scaled x)) (1 <<< expPlaces)

end Onboard.Double
