import Onboard.Robot.Chicker
import Onboard.Robot.Status
import Onboard.Time

/-!
What the control loop gathers during a cycle and what it carries from one cycle to the next.
-/

namespace Onboard

/-- Gathered during one cycle and discarded once it is reported. -/
structure CycleRecord where
  wake : Option Instant
  /-- The whole cycle before, from wake to wake. -/
  iterationTime : Duration
  networkPoll : Duration
  executorStart : Duration
  executorStep : Duration
  powerPoll : Duration
  motorPoll : Duration
  power : ChickerCommand
  faults : List ErrorCode
  deriving DecidableEq

namespace CycleRecord

def empty : CycleRecord := ⟨none, 0, 0, 0, 0, 0, 0, .idle, []⟩

def times (r : CycleRecord) : CycleTimes :=
  ⟨r.networkPoll.toMs, r.executorStart.toMs, r.executorStep.toMs, r.powerPoll.toMs, r.motorPoll.toMs,
    r.iterationTime.toMs⟩

end CycleRecord

structure CycleStore where
  cycles : UInt64
  isSecondCycle : Bool
  lastStart : Option Instant
  current : CycleRecord
  measuredVelocity : Velocity
  /-- Sampled once a second. -/
  cpuTemperature : Option Float
  /-- Sampled once a second. -/
  powerStable : Bool
  deriving DecidableEq

namespace CycleStore

def initial : CycleStore := ⟨0, false, none, .empty, .zero, none, false⟩

def cyclesPerSecond (hz : Float) : UInt64 :=
  max 1 (Double.round hz).toUInt64

/-- Forgets the last cycle's record and notes the time it took. -/
def start (s : CycleStore) (now : Instant) (hz : Float) : CycleStore :=
  let iterationTime := match s.lastStart with
    | some last => now.since last
    | none => 0
  { s with
    isSecondCycle := s.cycles % cyclesPerSecond hz = 0
    current := { CycleRecord.empty with wake := some now, iterationTime := iterationTime }
    lastStart := some now }

def finish (s : CycleStore) : Except Fault CycleStore := do
  return { s with cycles := ← addUInt64 s.cycles 1 }

end CycleStore

end Onboard
