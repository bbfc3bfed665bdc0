import Onboard.Fault
import Onboard.Number.Double

/-!
How many primitive sets get lost, estimated from the sequence numbers of the last ones received.
-/

namespace Onboard

/-- Sequence numbers in the order of their arrival, the oldest first. -/
structure LossWindow where
  numbers : List UInt64
  capacity : Nat
  deriving DecidableEq

namespace LossWindow

def withCapacity (capacity : Nat) : LossWindow :=
  ⟨[], max 2 capacity⟩

def standard : LossWindow := withCapacity 100

def largest? (w : LossWindow) : Option UInt64 :=
  w.numbers.max?

def smallest? (w : LossWindow) : Option UInt64 :=
  w.numbers.min?

/-- A number further behind the window than it is wide is taken for a sender's restart. -/
def isRestart (w : LossWindow) (number : UInt64) : Bool :=
  match w.largest? with
  | some largest => saturatingAdd number (UInt64.ofNat w.capacity) < largest
  | none => false

/-- Takes a number in; one that is there already changes nothing, and after a restart the window begins anew. -/
def record (w : LossWindow) (number : UInt64) : LossWindow :=
  if w.numbers.contains number then w
  else
    let numbers := (if w.isRestart number then [] else w.numbers) ++ [number]
    { w with numbers := numbers.drop (numbers.length - w.capacity) }

/-- The share of the numbers from the smallest to the largest that are missing, in percent. -/
def percentage (w : LossWindow) : Except Fault Float :=
  match w.smallest?, w.largest? with
  | some smallest, some largest => do
    let expected ← addUInt64 (largest - smallest) 1
    let share := 1.0 - Double.ofNat w.numbers.length / Double.ofNat expected.toNat
    return Double.min (Double.max (share * 100.0) 0.0) 100.0
  | _, _ => .ok 0.0

end LossWindow

end Onboard
