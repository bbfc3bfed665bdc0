/-!
Demands on the kicker and the chipper, which share one set of capacitors and are never asked for together.
-/

namespace Onboard

/-- What a primitive asks of the kicker or chipper: a speed in metres per second or a distance in metres. The
automatic forms wait for the ball to trip the break beam. -/
inductive ChickerCommand where
  | idle
  | kick (speed : Float)
  | chip (distance : Float)
  | autoKick (speed : Float)
  | autoChip (distance : Float)
  deriving DecidableEq

namespace ChickerCommand

instance : Inhabited ChickerCommand := ⟨.idle⟩

def name : ChickerCommand → String
  | .idle => "None"
  | .kick _ => "Kick"
  | .chip _ => "Chip"
  | .autoKick _ => "AutoKick"
  | .autoChip _ => "AutoChip"

def amount? : ChickerCommand → Option Float
  | .idle => none
  | .kick x | .chip x | .autoKick x | .autoChip x => some x

def isKick : ChickerCommand → Bool
  | .kick _ | .autoKick _ => true
  | _ => false

def isChip : ChickerCommand → Bool
  | .chip _ | .autoChip _ => true
  | _ => false

end ChickerCommand

end Onboard
