import Onboard.Robot.Chicker
import Onboard.Time

/-!
Ages that the control loop watches: of the primitive set it follows, and of the last kick and chip.
-/

namespace Onboard

/-- The age of the last accepted set, counted from the start of the loop until there is one. -/
structure Staleness where
  timeout : Duration
  lastAccepted : Instant
  everAccepted : Bool
  deriving DecidableEq

namespace Staleness

def startingAt (timeout : Duration) (start : Instant) : Staleness :=
  ⟨timeout, start, false⟩

def accept (s : Staleness) (receivedAt : Instant) : Staleness :=
  { s with lastAccepted := receivedAt, everAccepted := true }

def age (s : Staleness) (now : Instant) : Duration :=
  now.since s.lastAccepted

/-- Nothing accepted yet, or the last set older than the timeout. -/
def isStale (s : Staleness) (now : Instant) : Bool :=
  !s.everAccepted || s.timeout < s.age now

def ageMs (s : Staleness) (now : Instant) : Float :=
  (s.age now).toMs

end Staleness

structure FireTimes where
  kicker : Option Instant
  chipper : Option Instant
  deriving DecidableEq

namespace FireTimes

def never : FireTimes := ⟨none, none⟩

def update (t : FireTimes) (demand : ChickerCommand) (now : Instant) : FireTimes :=
  ⟨if demand.isKick then some now else t.kicker, if demand.isChip then some now else t.chipper⟩

def msSince (at? : Option Instant) (now : Instant) : Float :=
  match at? with
  | some t => (now.since t).toMs
  | none => 0.0

def kickerMs (t : FireTimes) (now : Instant) : Float :=
  msSince t.kicker now

def chipperMs (t : FireTimes) (now : Instant) : Float :=
  msSince t.chipper now

end FireTimes

end Onboard
