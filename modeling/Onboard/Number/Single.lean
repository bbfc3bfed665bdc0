import Onboard.Number.Double

/-!
Single-precision numbers as the power board sends them. The bits are kept as they arrive, payloads of
not-a-numbers included; arithmetic and comparison go through the exact double.
-/

namespace Onboard

structure Single where
  bits : UInt32
  deriving DecidableEq, Repr

namespace Single

def zero : Single := ⟨0⟩

instance : Inhabited Single := ⟨zero⟩

def magnitude (x : Single) : Nat :=
  x.bits.toNat % 0x80000000

def isNegative (x : Single) : Bool :=
  0x80000000 ≤ x.bits.toNat

def isNaN (x : Single) : Bool :=
  BinaryFormat.single.infinity < x.magnitude

def isFinite (x : Single) : Bool :=
  x.magnitude < BinaryFormat.single.infinity

def ofParts (negative : Bool) (magnitude : Nat) : Single :=
  ⟨UInt32.ofNat (magnitude + if negative then 0x80000000 else 0)⟩

/-- The same number as a double; every single is one. -/
def toFloat (x : Single) : Float :=
  if x.isNaN then Double.nan
  else if !x.isFinite then Double.ofParts x.isNegative BinaryFormat.double.infinity
  else
    let s := BinaryFormat.single.decode x.magnitude
    let fraction := unscale s.coefficient 1 (-s.exponent)
    Double.ofRatio x.isNegative fraction.1 fraction.2

/-- The nearest single, a tie going to the even one and too large a number to infinity. -/
def ofFloat (x : Float) : Single :=
  if x.isNaN then ofParts false (BinaryFormat.single.infinity + 0x400000)
  else if x.isInf then ofParts (Double.isNegative x) BinaryFormat.single.infinity
  else
    let s := Double.scaled x
    let fraction := unscale s.coefficient 1 (-s.exponent)
    ofParts (Double.isNegative x) (BinaryFormat.single.roundRatio fraction.1 fraction.2)

end Single

end Onboard
