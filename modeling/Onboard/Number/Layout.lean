import Onboard.Number.Single
import Onboard.Number.Shortest
import Onboard.Text.Quoted

/-!
How the digits of a number are laid out. A `Layout` says which numbers are written without an exponent and how an
exponent looks; two of them serve the doubles and the singles on the wire, two more plain and structured messages.
`fixed` writes a given number of decimal places.
-/

namespace Onboard

/-- The decisions of one way of writing numbers. -/
structure Layout where
  /-- The decimal exponents of the first digit that are written positionally; every one if absent. -/
  positional : Option (Int × Int)
  /-- Whether whole numbers end in `.0`. -/
  wholePoint : Bool
  /-- Whether exponents from zero up carry a plus sign. -/
  plus : Bool
  tie : Decimal.Tie

namespace Layout

/-- Doubles on the wire: `0.00001` and `1000000000000000.0`, then `1e-6` and `1e+16`. -/
def wire : Layout := ⟨some (-5, 15), true, true, .even⟩

/-- Singles on the wire: `0.000001` and `1000000000000.0`, then `1e-7` and `1e+13`. -/
def wireSingle : Layout := ⟨some (-6, 12), true, true, .even⟩

/-- Numbers in messages: never an exponent, no decimals for whole numbers. -/
def plain : Layout := ⟨none, false, false, .up⟩

/-- Numbers inside a printed structure: `0.0001` and `1000000000000000.0`, then `1e-5` and `1e16`. -/
def structured : Layout := ⟨some (-4, 15), true, false, .up⟩

/-- The digits with a point so that the first one stands for `10 ^ first`. -/
def positionalDigits (l : Layout) (digits : List Char) (first : Int) : List Char :=
  if first < 0 then ['0', '.'] ++ List.replicate (-first - 1).toNat '0' ++ digits
  else
    let whole := first.toNat + 1
    if digits.length ≤ whole then
      digits ++ List.replicate (whole - digits.length) '0' ++ (if l.wholePoint then ['.', '0'] else [])
    else digits.take whole ++ '.' :: digits.drop whole

def scientificDigits (l : Layout) (digits : List Char) (first : Int) : List Char :=
  let mantissa := match digits with
    | d :: e :: rest => d :: '.' :: e :: rest
    | ds => ds
  let sign := if first < 0 then ['-'] else if l.plus then ['+'] else []
  mantissa ++ 'e' :: sign ++ Decimal.digitList first.natAbs

def writeDecimal (l : Layout) (d : Decimal) : List Char :=
  let digits := Decimal.digitList d.digits
  let first := d.exponent + digits.length - 1
  let isPositional := match l.positional with
    | none => true
    | some (low, high) => low ≤ first && first ≤ high
  if isPositional then l.positionalDigits digits first else l.scientificDigits digits first

def writeMagnitude (l : Layout) (f : BinaryFormat) (magnitude : Nat) : List Char :=
  if magnitude = 0 then (if l.wholePoint then ['0', '.', '0'] else ['0'])
  else l.writeDecimal (Decimal.shortest f l.tie magnitude)

def signed (negative : Bool) (text : List Char) : List Char :=
  if negative then '-' :: text else text

def finite (l : Layout) (x : Float) : List Char :=
  signed (Double.isNegative x) (l.writeMagnitude .double (Double.magnitude x))

/-- A finite single, by the digits that tell it from other singles. -/
def finiteSingle (l : Layout) (x : Single) : List Char :=
  signed x.isNegative (l.writeMagnitude .single x.magnitude)

def write (l : Layout) (x : Float) : String :=
  if x.isNaN then "NaN"
  else if x.isInf then (if Double.isNegative x then "-inf" else "inf")
  else String.ofList (l.finite x)

/-- A whole number of units in the last of `places` decimal places. -/
def pointed (places units : Nat) : List Char :=
  let digits := Text.padLeft (places + 1) '0' (Decimal.digitList units)
  let whole := digits.length - places
  if places = 0 then digits else digits.take whole ++ '.' :: digits.drop whole

/-- The number with `places` decimal places, a half going to the even neighbour. -/
def fixed (places : Nat) (x : Float) : String :=
  if x.isFinite then
    let s := Double.scaled x
    let fraction := unscale (s.coefficient * Nat.pow 10 places) 1 (-s.exponent)
    String.ofList (signed (Double.isNegative x) (pointed places (roundHalfEven fraction.1 fraction.2)))
  else plain.write x

end Layout

end Onboard
