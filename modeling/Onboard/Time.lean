import Onboard.Fault
import Onboard.Number.Double

/-!
Time. Instants and durations are whole nanoseconds; an instant counts from an arbitrary base and a later instant
taken from an earlier one leaves nothing.
-/

namespace Onboard

/-- Nanoseconds after an arbitrary base. -/
abbrev Instant := Nat

abbrev Duration := Nat

def nanosPerSecond : Nat := 1000000000

/-- The time from `earlier` to `now`; nothing if `earlier` is the later one. -/
def Instant.since (now earlier : Instant) : Duration :=
  Nat.sub now earlier

namespace Duration

/-- Seconds and their fraction are rounded one by one and then added. -/
def toSeconds (d : Duration) : Float :=
  Double.ofNat (d / nanosPerSecond) + Double.ofNat (d % nanosPerSecond) / 1000000000.0

def toMs (d : Duration) : Float :=
  toSeconds d * 1000.0

/-- The nearest number of nanoseconds, a half going to the even one; seconds have 64 bits. -/
def ofSeconds (s : Float) : Except Fault Duration :=
  if s < 0.0 then .error .negativeSeconds
  else if s.isFinite ∧ s < 18446744073709551616.0 then
    let x := Double.scaled s
    let fraction := unscale (x.coefficient * nanosPerSecond) 1 (-x.exponent)
    .ok (roundHalfEven fraction.1 fraction.2)
  else .error .secondsOutOfRange

end Duration

/-- A signed length of time in seconds, if its nanoseconds have 64 bits. -/
def signedSeconds (nanos : Int) : Option Float :=
  if -0x8000000000000000 ≤ nanos ∧ nanos < 0x8000000000000000 then some (Double.ofInt nanos / 1000000000.0) else none

end Onboard
