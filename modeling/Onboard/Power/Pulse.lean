import Onboard.Number.Double
import Onboard.Robot.Chicker

/-!
Pulses for the solenoids of kicker and chipper. `PulseCommand.ofDemand` turns a demand into pulse widths by the
robot's calibration; a demand that is negative or not finite leaves the board idle.
-/

namespace Onboard

inductive PulseMode where
  | idle
  | kick
  | chip
  | autoKick
  | autoChip
  deriving DecidableEq, Inhabited

namespace PulseMode

def all : List PulseMode := [.idle, .kick, .chip, .autoKick, .autoChip]

def name : PulseMode → String
  | .idle => "Idle"
  | .kick => "Kick"
  | .chip => "Chip"
  | .autoKick => "AutoKick"
  | .autoChip => "AutoChip"

end PulseMode

/-- A command to the power board, widths in microseconds. -/
structure PulseCommand where
  mode : PulseMode
  kickWidth : UInt32
  chipWidth : UInt32
  deriving DecidableEq

/-- The kick width at speed `v` is `kickConstant * exp (kickCoefficient * v)`; chips have one width. -/
structure KickCalibration where
  kickCoefficient : Float
  kickConstant : UInt32
  chipWidth : UInt32
  deriving DecidableEq

namespace PulseCommand

def idle : PulseCommand := ⟨.idle, 0, 0⟩

instance : Inhabited PulseCommand := ⟨idle⟩

/-- A demand that can be met: neither infinite nor negative. -/
def isValidDemand (amount : Float) : Bool :=
  amount.isFinite && !(amount < 0.0)

/-- The nearest whole number of microseconds, at most the largest the board takes. -/
def kickWidthFor (calibration : KickCalibration) (speed : Float) : UInt32 :=
  let width := calibration.kickConstant.toFloat * Double.exp (calibration.kickCoefficient * speed)
  (Double.min (Double.round width) 4294967295.0).toUInt32

def ofDemand (calibration : KickCalibration) : ChickerCommand → PulseCommand
  | .idle => idle
  | .kick speed => if isValidDemand speed then ⟨.kick, kickWidthFor calibration speed, 0⟩ else idle
  | .autoKick speed => if isValidDemand speed then ⟨.autoKick, kickWidthFor calibration speed, 0⟩ else idle
  | .chip distance => if isValidDemand distance then ⟨.chip, 0, calibration.chipWidth⟩ else idle
  | .autoChip distance => if isValidDemand distance then ⟨.autoChip, 0, calibration.chipWidth⟩ else idle

end PulseCommand

end Onboard
