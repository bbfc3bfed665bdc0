/-!
Faults: computations whose result has no place in its type. A fault ends the thread of control that meets it.
-/

namespace Onboard

inductive Fault where
  | addOverflow
  | multiplyOverflow
  | negativeSeconds
  | secondsOutOfRange
  | capacityOverflow
  deriving DecidableEq

namespace Fault

def message : Fault → String
  | .addOverflow => "attempt to add with overflow"
  | .multiplyOverflow => "attempt to multiply with overflow"
  | .negativeSeconds => "cannot convert float seconds to Duration: value is negative"
  | .secondsOutOfRange => "cannot convert float seconds to Duration: value is either too big or NaN"
  | .capacityOverflow => "capacity overflow"

end Fault

def addInt64 (a b : Int) : Except Fault Int :=
  if -0x8000000000000000 ≤ a + b ∧ a + b < 0x8000000000000000 then .ok (a + b) else .error .addOverflow

def addUInt64 (a b : UInt64) : Except Fault UInt64 :=
  if a.toNat + b.toNat < 0x10000000000000000 then .ok (a + b) else .error .addOverflow

/-- The sum, or the largest number if there is no sum. -/
def saturatingAdd (a b : UInt64) : UInt64 :=
  if a.toNat + b.toNat < 0x10000000000000000 then a + b else 0xFFFFFFFFFFFFFFFF

end Onboard
