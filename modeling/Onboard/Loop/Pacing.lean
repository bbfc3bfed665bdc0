import Onboard.Log
import Onboard.Time

/-!
Pacing of the control loop. Deadlines on the monotonic clock advance by exactly one interval a cycle; a loop that has
fallen more than one interval behind moves its deadline up to now, so that lag never adds up.
-/

namespace Onboard

/-- A moment on the monotonic clock; `nsec` lies within a second after any `advance`. -/
structure Deadline where
  sec : Int
  nsec : Int
  deriving DecidableEq

namespace Deadline

def ofNanos (nanos : Int) : Deadline :=
  ⟨nanos / nanosPerSecond, nanos % nanosPerSecond⟩

def toNanos (d : Deadline) : Int :=
  d.sec * nanosPerSecond + d.nsec

/-- Moves on by an interval and carries whole seconds out of `nsec`. -/
def advance (d : Deadline) (interval : Int) : Except Fault Deadline := do
  let nsec ← addInt64 d.nsec interval
  let sec ← addInt64 d.sec (nsec / nanosPerSecond)
  return ⟨sec, nsec % nanosPerSecond⟩

end Deadline

/-- The period of a frequency in nanoseconds, at least one and at most what 64 bits with a sign hold. -/
def intervalNanos (hz : Float) : Int :=
  max 1 (min 0x7FFFFFFFFFFFFFFF (Double.round (1000000000.0 / hz)).toUInt64.toNat)

/-- The next wake, and whether the cycle before it ended too late, or so late that the deadline was moved. -/
structure Schedule where
  next : Deadline
  overrun : Bool
  resynced : Bool
  deriving DecidableEq

def Schedule.after (previous : Deadline) (interval : Int) (now : Deadline) : Except Fault Schedule := do
  let next ← previous.advance interval
  let lag := now.toNanos - next.toNanos
  return ⟨if interval < lag then now else next, 0 < lag, interval < lag⟩

/-- Keeps a thread to a frequency and counts the cycles that ended too late. -/
structure Pacer where
  interval : Int
  deadline : Deadline
  overruns : UInt64
  deriving DecidableEq

namespace Pacer

def startingAt (hz : Float) (start : Deadline) : Pacer :=
  ⟨intervalNanos hz, start, 0⟩

/-- One wait that begins at `now`: the pacer after it, its schedule and the warning of a resynchronisation. -/
def wait (p : Pacer) (now : Deadline) : Except Fault (Pacer × Schedule × List LogLine) := do
  let s ← Schedule.after p.deadline p.interval now
  if s.overrun then
    let overruns ← addUInt64 p.overruns 1
    let warning := s!"Cycle overran by more than one period ({overruns} overruns so far), resyncing"
    return (⟨p.interval, s.next, overruns⟩, s, if s.resynced then [.warn warning] else [])
  else return (⟨p.interval, s.next, p.overruns⟩, s, [])

end Pacer

end Onboard
