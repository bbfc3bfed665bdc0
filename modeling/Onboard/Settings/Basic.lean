import Onboard.Cause
import Onboard.Loop.Faults
import Onboard.Network.Channel
import Onboard.Number.Layout
import Onboard.Power.Pulse
import Onboard.Text.Blank

/-!
Settings of a robot, its control loop, its power board and its network, and what makes them usable. Of several
faults the first one is named.
-/

namespace Onboard

/-- Identity and calibration of one robot. -/
structure RobotSettings where
  robotId : UInt32
  channel : UInt64
  networkInterface : String
  calibration : KickCalibration
  deriving DecidableEq

structure LoopSettings where
  loopHz : Float
  statusHz : Float
  primitiveHz : Float
  packetTimeoutMs : Float
  peripheralTimeoutMs : Float
  thresholds : FaultThresholds
  temperaturePath : String
  kernelLogPath : String
  firmwarePath : String
  datePath : String
  deriving DecidableEq

/-- The serial link to the power board. -/
structure PowerSettings where
  device : String
  baudRate : UInt32
  readTimeoutMs : UInt64
  deriving DecidableEq

structure NetworkSettings where
  primitivePort : UInt16
  statusPort : UInt16
  crashPort : UInt16
  testPort : UInt16
  /-- A local socket on which primitives are accepted too. -/
  localPrimitivePath : Option String
  auditPrimitives : Bool
  telemetryEndpoint : String
  deriving DecidableEq

inductive SettingsError where
  | loopFrequency (found : Float)
  | rate (field : String) (found : Float)
  | timeout (field : String) (found : Float)
  | channel (found : UInt64)
  | emptyInterface
  | calibration (found : KickCalibration)
  | baudRate
  deriving DecidableEq

namespace SettingsError

def calibrationText (c : KickCalibration) : String :=
  "KickCalibration \x7b kick_coeff: " ++ Layout.structured.write c.kickCoefficient
    ++ s!", kick_constant: {c.kickConstant}, chip_pulse_width: {c.chipWidth} \x7d"

def message : SettingsError → String
  | .loopFrequency found => "Loop frequency must be positive, found " ++ Layout.plain.write found
  | .rate field found =>
    "Rate " ++ field ++ " must be positive and no higher than the loop frequency, found " ++ Layout.plain.write found
  | .timeout field found => "Timeout " ++ field ++ " must be positive, found " ++ Layout.plain.write found
  | .channel found => Channel.unknownMessage found.toNat
  | .emptyInterface => "Network interface name is empty"
  | .calibration found => "Kick calibration is not usable: " ++ calibrationText found
  | .baudRate => "Baud rate must be positive"

instance : Cause SettingsError where
  name
    | .loopFrequency _ => "InvalidLoopFrequency"
    | .rate .. => "InvalidRate"
    | .timeout .. => "InvalidTimeout"
    | .channel _ => "InvalidChannel"
    | .emptyInterface => "EmptyInterface"
    | .calibration _ => "InvalidCalibration"
    | .baudRate => "InvalidBaudRate"
  message := SettingsError.message

end SettingsError

def require (holds : Bool) (error : SettingsError) : Except SettingsError Unit :=
  if holds then .ok () else .error error

def RobotSettings.check (s : RobotSettings) : Except SettingsError Unit := do
  require (Channel.group? s.channel.toNat).isSome (.channel s.channel)
  require (Text.trim s.networkInterface.toList ≠ []) .emptyInterface
  require (s.calibration.kickCoefficient.isFinite && s.calibration.kickConstant ≠ 0) (.calibration s.calibration)

namespace LoopSettings

def isUsableRate (s : LoopSettings) (hz : Float) : Bool :=
  0.0 < hz && !(s.loopHz < hz)

def isUsableTimeout (ms : Float) : Bool :=
  0.0 < ms && ms.isFinite

def check (s : LoopSettings) : Except SettingsError Unit := do
  require (0.0 < s.loopHz && s.loopHz.isFinite) (.loopFrequency s.loopHz)
  require (s.isUsableRate s.statusHz) (.rate "status_rate_hz" s.statusHz)
  require (s.isUsableRate s.primitiveHz) (.rate "primitive_rate_hz" s.primitiveHz)
  require (isUsableTimeout s.packetTimeoutMs) (.timeout "packet_timeout_ms" s.packetTimeoutMs)
  require (isUsableTimeout s.peripheralTimeoutMs) (.timeout "peripheral_timeout_ms" s.peripheralTimeoutMs)

end LoopSettings

def PowerSettings.check (s : PowerSettings) : Except SettingsError Unit := do
  require (s.baudRate ≠ 0) .baudRate
  require (s.readTimeoutMs ≠ 0) (.timeout "read_timeout_ms" 0.0)

end Onboard
