/-!
Binary interchange formats over exact integers. A magnitude (the bits below the sign) is read as
`coefficient * 2 ^ exponent` by `BinaryFormat.decode`, and `BinaryFormat.roundRatio` gives the
magnitude nearest a fraction, a tie going to the even coefficient.
-/

namespace Onboard

structure Scaled where
  coefficient : Nat
  exponent : Int
  deriving DecidableEq, Repr

/-- A format with `precision` significant bits whose least positive value is `2 ^ minExponent`. -/
structure BinaryFormat where
  precision : Nat
  minExponent : Int
  exponentBits : Nat
  deriving DecidableEq, Repr

/-- The integer nearest `num / den`, a half going to the even neighbour. -/
def roundHalfEven (num den : Nat) : Nat :=
  let whole := num / den
  let rest := 2 * (num % den)
  if rest < den then whole else if den < rest then whole + 1 else whole + whole % 2

/-- The integer nearest `num / den`, a half going up. -/
def roundHalfUp (num den : Nat) : Nat :=
  (2 * num + den) / (2 * den)

/-- The fraction `num / den / 2 ^ e` as a numerator and a denominator. -/
def unscale (num den : Nat) (e : Int) : Nat × Nat :=
  if 0 ≤ e then (num, den <<< e.toNat) else (num <<< (-e).toNat, den)

namespace BinaryFormat

def double : BinaryFormat := ⟨53, -1074, 11⟩

def single : BinaryFormat := ⟨24, -149, 8⟩

/-- The magnitude of infinity; larger ones are not numbers. -/
def infinity (f : BinaryFormat) : Nat :=
  (1 <<< f.exponentBits - 1) <<< (f.precision - 1)

def decode (f : BinaryFormat) (magnitude : Nat) : Scaled :=
  let half := 1 <<< (f.precision - 1)
  if magnitude / half = 0 then ⟨magnitude, f.minExponent⟩
  else ⟨half + magnitude % half, f.minExponent + (magnitude / half - 1 : Nat)⟩

/-- The one sum serves subnormal and normal numbers alike, and a coefficient of `2 ^ precision` moves to the
next exponent by itself. -/
def encode (f : BinaryFormat) (x : Scaled) : Nat :=
  min f.infinity ((x.exponent - f.minExponent).toNat <<< (f.precision - 1) + x.coefficient)

/-- The least exponent, not below the format's own, at which `num / den` has at most `precision` bits. -/
def exponentFor (f : BinaryFormat) (num den : Nat) : Int :=
  let guess := (num.log2 : Int) - den.log2 - f.precision
  let scaled := unscale num den guess
  max f.minExponent (if scaled.1 < scaled.2 <<< f.precision then guess else guess + 1)

def roundRatio (f : BinaryFormat) (num den : Nat) : Nat :=
  if num = 0 then 0
  else
    let e := f.exponentFor num den
    let scaled := unscale num den e
    f.encode ⟨roundHalfEven scaled.1 scaled.2, e⟩

/-- The magnitude nearest `digits * 10 ^ exponent`. Exponents far outside the format are settled without
computing the power. -/
def roundDecimal (f : BinaryFormat) (digits : Nat) (exponent : Int) : Nat :=
  let range : Nat := 1 <<< f.exponentBits
  if digits = 0 then 0
  else if (range : Int) < exponent then f.infinity
  else if exponent < -(digits.log2 : Int) - (range : Int) then 0
  else if 0 ≤ exponent then f.roundRatio (digits * Nat.pow 10 exponent.toNat) 1
  else f.roundRatio digits (Nat.pow 10 (-exponent).toNat)

end BinaryFormat

end Onboard
