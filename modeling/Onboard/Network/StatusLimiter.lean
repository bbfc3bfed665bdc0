import Onboard.Number.Double
import Onboard.Robot.Status

/-!
When to send a status. The loop makes one each cycle; it is sent when something that matters has changed since the
last one sent, and otherwise often enough to keep up the rate of statuses.
-/

namespace Onboard

/-- The most cycles from one send to the next: a status rate's share of the loop's frequency, rounded up. -/
def heartbeatFloor (loopHz statusHz : Float) : UInt32 :=
  if 0.0 < statusHz ∧ 0.0 < loopHz then max 1 (Double.ceil (loopHz / statusHz)).toUInt32 else 1

/-- What has to stay the same for a status not to be sent at once. -/
structure StatusDigest where
  motorFaults : List MotorFaultReport
  errorCodes : List ErrorCode
  breakbeamTripped : Bool
  deriving DecidableEq

/-- Error codes count as a set, motor faults as they are listed. -/
def StatusDigest.of (s : RobotStatus) : StatusDigest :=
  ⟨s.motor.faults, ErrorCode.all.filter fun e => s.errorCodes.contains e, s.power.breakbeamTripped⟩

structure StatusLimiter where
  floor : UInt32
  cyclesSinceSend : UInt32
  lastSent : Option StatusDigest
  deriving DecidableEq

namespace StatusLimiter

def new (loopHz statusHz : Float) : StatusLimiter :=
  ⟨heartbeatFloor loopHz statusHz, 0, none⟩

/-- One cycle later; the count stays at its largest value. -/
def nextCount (l : StatusLimiter) : UInt32 :=
  if l.cyclesSinceSend = 0xFFFFFFFF then l.cyclesSinceSend else l.cyclesSinceSend + 1

/-- Decides for one cycle's status, and takes it for sent if it is to be sent. -/
def shouldSend (l : StatusLimiter) (s : RobotStatus) : Bool × StatusLimiter :=
  let count := l.nextCount
  let digest := StatusDigest.of s
  if l.lastSent ≠ some digest ∨ l.floor ≤ count then (true, ⟨l.floor, 0, some digest⟩)
  else (false, { l with cyclesSinceSend := count })

def decisions (l : StatusLimiter) : List RobotStatus → List Bool
  | [] => []
  | s :: rest => let r := l.shouldSend s; r.1 :: decisions r.2 rest

end StatusLimiter

end Onboard
