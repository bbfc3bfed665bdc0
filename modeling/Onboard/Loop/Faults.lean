import Onboard.Host.Storage
import Onboard.Log
import Onboard.Robot.Status
import Onboard.Text.Quoted
import Onboard.Time

/-!
Conditions that a status flags. `FaultInputs.faults` judges one cycle's readings against the thresholds;
`StabilityMonitor` watches the kernel's log for the alarm of an over-current on the power rail.
-/

namespace Onboard

structure FaultThresholds where
  lowBattery : Single
  highCapacitor : Single
  highBoardTemperature : Float
  deriving DecidableEq

/-- The readings of one cycle; an age is missing until the power board has been heard. -/
structure FaultInputs where
  power : PowerStatus
  powerAge : Option Duration
  cpuTemperature : Option Float
  powerStable : Bool
  deriving DecidableEq

namespace FaultInputs

def faults (i : FaultInputs) (thresholds : FaultThresholds) (peripheralTimeout : Duration) : List ErrorCode :=
  let isHeard := match i.powerAge with
    | some age => age ≤ peripheralTimeout
    | none => false
  let isHot := match i.cpuTemperature with
    | some t => thresholds.highBoardTemperature ≤ t
    | none => false
  let holds : ErrorCode → Bool
    | .lowBattery => isHeard && i.power.batteryVoltage.toFloat ≤ thresholds.lowBattery.toFloat
    | .highCap => isHeard && thresholds.highCapacitor.toFloat ≤ i.power.capacitorVoltage.toFloat
    | .highBoardTemp => isHot
    | .unstablePowerSupply => !i.powerStable
    | .peripheralDisconnected => !isHeard
  ErrorCode.all.filter holds

end FaultInputs

/-- What the kernel logs when the power rail draws too much. -/
def overCurrentMarker : String := "soctherm: OC ALARM 0x00000001"

def occursIn {α : Type} [BEq α] (part : List α) : List α → Bool
  | [] => part.isEmpty
  | a :: rest => part.isPrefixOf (a :: rest) || occursIn part rest

/-- Scans what is appended to a log, each byte once. -/
structure StabilityMonitor where
  path : String
  offset : Nat
  deriving DecidableEq

namespace StabilityMonitor

/-- Skips what lies in the log already. -/
def new (path : String) (node : Option FileNode) : StabilityMonitor :=
  ⟨path, (node.map FileNode.length).getD 0⟩

/-- Where a scan begins: a log that has become shorter is a new one. -/
def scanStart (m : StabilityMonitor) (length : Nat) : Nat :=
  if length < m.offset then 0 else m.offset

def holdsMarker (appended : Bytes) : Bool :=
  occursIn overCurrentMarker.toList (Utf8.decodeLossy appended)

/-- Whether the rail was stable since the last check. What cannot be read tells nothing, and a directory can be
opened but not read. -/
def check (m : StabilityMonitor) (node : Option FileNode) : Bool × StabilityMonitor × List LogLine :=
  match node with
  | none => (true, m, [])
  | some .directory => (true, { m with offset := m.scanStart FileNode.directoryLength }, [])
  | some (.file contents) =>
    let next := { m with offset := contents.length }
    if holdsMarker (contents.drop (m.scanStart contents.length)) then
      (false, next, [.warn ("Power rail over current alarm found in " ++ Text.quoted m.path)])
    else (true, next, [])

end StabilityMonitor

end Onboard
