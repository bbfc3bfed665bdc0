import Onboard.Fault
import Onboard.Number.Double
import Onboard.Robot.Status

/-!
Round trips. Each new primitive set leaves a record until a status echoes its sequence number; the buffer is bounded
and keeps the latest records.
-/

namespace Onboard

structure RoundTripRecord where
  sequence : UInt64
  aiSent : Float
  robotReceived : Float
  deriving DecidableEq

/-- Records with the oldest first. -/
structure RoundTrips where
  records : List RoundTripRecord
  capacity : Nat
  deriving DecidableEq

namespace RoundTrips

def withCapacity (capacity : Nat) : RoundTrips :=
  ⟨[], max 1 capacity⟩

/-- Records kept for each set that arrives between two statuses. -/
def recordsPerSet : Nat := 4

/-- Bytes of one record in memory, which bound the number of records. -/
def recordSize : Nat := 24

/-- Room for four times the sets that arrive from one status to the next. -/
def forRates (primitiveHz statusHz : Float) : Except Fault RoundTrips :=
  let sets := if 0.0 < statusHz ∧ 0.0 < primitiveHz then (Double.ceil (primitiveHz / statusHz)).toUInt64.toNat else 1
  let capacity := max 1 sets * recordsPerSet
  if 0x10000000000000000 ≤ capacity then .error .multiplyOverflow
  else if 0x8000000000000000 ≤ capacity * recordSize then .error .capacityOverflow
  else .ok (withCapacity capacity)

def record (t : RoundTrips) (r : RoundTripRecord) : RoundTrips :=
  let records := t.records ++ [r]
  { t with records := records.drop (records.length - t.capacity) }

/-- The round trip that a status completes by echoing a sequence number. The first record with this number goes, and
all older ones with it, since a set that was overtaken is not echoed any more. -/
def resolve (t : RoundTrips) (sequence : UInt64) (statusSent : Float) : Option RoundTrip × RoundTrips :=
  match t.records.dropWhile (fun r => r.sequence ≠ sequence) with
  | [] => (none, t)
  | r :: later => (some ⟨r.sequence, r.aiSent, r.robotReceived, statusSent⟩, { t with records := later })

end RoundTrips

end Onboard
