import Onboard.Robot.Status
import Onboard.Wire.Control

/-!
The wire form of statuses, crash reports and the spectators' packet.
-/

namespace Onboard

open Json

namespace Motor

def all : List Motor := [.frontLeft, .backLeft, .backRight, .frontRight, .dribbler]

def name : Motor → String
  | .frontLeft => "FrontLeft"
  | .backLeft => "BackLeft"
  | .backRight => "BackRight"
  | .frontRight => "FrontRight"
  | .dribbler => "Dribbler"

end Motor

namespace MotorFault

def all : List MotorFault :=
  [.overTemperature, .overCurrent, .underVoltage, .hallSensorError, .commsTimeout, .driverFault]

def name : MotorFault → String
  | .overTemperature => "OverTemperature"
  | .overCurrent => "OverCurrent"
  | .underVoltage => "UnderVoltage"
  | .hallSensorError => "HallSensorError"
  | .commsTimeout => "CommsTimeout"
  | .driverFault => "DriverFault"

end MotorFault

namespace ErrorCode

def name : ErrorCode → String
  | .lowBattery => "LowBattery"
  | .highCap => "HighCap"
  | .highBoardTemp => "HighBoardTemp"
  | .unstablePowerSupply => "UnstablePowerSupply"
  | .peripheralDisconnected => "PeripheralDisconnected"

def ofJson? (j : Json) : Option ErrorCode := Wire.named? name all j

instance : Wire ErrorCode := ⟨fun e => ofText e.name, ofJson?⟩

end ErrorCode

namespace MotorFaultReport

def fieldNames : List String := ["motor", "enabled", "faults"]

def toJson (r : MotorFaultReport) : Json :=
  Wire.record (fieldNames.zip [ofText r.motor.name, .bool r.enabled, Wire.names MotorFault.name r.faults])

def ofJson? (j : Json) : Option MotorFaultReport := do
  match ← j.fields? fieldNames with
  | [motor, enabled, faults] =>
    return ⟨← required (Wire.named? Motor.name Motor.all) motor, ← required toBool? enabled,
      ← required (toList? (Wire.named? MotorFault.name MotorFault.all)) faults⟩
  | _ => none

end MotorFaultReport

namespace MotorStatus

def fieldNames : List String := ["local_velocity", "dribbler_speed_rpm", "motor_faults"]

def toJson (m : MotorStatus) : Json :=
  Wire.record (fieldNames.zip
    [m.velocity.toJson, ofFloat m.dribbler, .array (m.faults.map MotorFaultReport.toJson)])

def ofJson? (j : Json) : Option MotorStatus := do
  match ← j.fields? fieldNames with
  | [velocity, dribbler, faults] =>
    return ⟨← required Velocity.ofJson? velocity, ← required toFloat? dribbler,
      ← required (toList? MotorFaultReport.ofJson?) faults⟩
  | _ => none

instance : Wire MotorStatus := ⟨toJson, ofJson?⟩

end MotorStatus

namespace PowerStatus

def fieldNames : List String :=
  ["battery_voltage", "capacitor_voltage", "current_draw", "breakbeam_tripped", "sequence"]

def toJson (s : PowerStatus) : Json :=
  Wire.record (fieldNames.zip [ofSingle s.batteryVoltage, ofSingle s.capacitorVoltage, ofSingle s.currentDraw,
    .bool s.breakbeamTripped, ofNat s.sequence.toNat])

def ofJson? (j : Json) : Option PowerStatus := do
  match ← j.fields? fieldNames with
  | [battery, capacitor, current, breakbeam, sequence] =>
    return ⟨← required toSingle? battery, ← required toSingle? capacitor, ← required toSingle? current,
      ← required toBool? breakbeam, UInt16.ofNat (← required (toNat? 0xFFFF) sequence)⟩
  | _ => none

instance : Wire PowerStatus := ⟨toJson, ofJson?⟩

end PowerStatus

namespace CycleTimes

def fieldNames : List String :=
  ["network_service_poll_time_ms", "primitive_executor_start_time_ms", "primitive_executor_step_time_ms",
   "power_service_poll_time_ms", "motor_service_poll_time_ms", "iteration_time_ms"]

def toJson (t : CycleTimes) : Json :=
  Wire.record (fieldNames.zip
    ([t.networkPoll, t.executorStart, t.executorStep, t.powerPoll, t.motorPoll, t.iteration].map ofFloat))

def ofJson? (j : Json) : Option CycleTimes := do
  match ← j.fields? fieldNames with
  | [network, start, step, power, motor, iteration] =>
    return ⟨← required toFloat? network, ← required toFloat? start, ← required toFloat? step,
      ← required toFloat? power, ← required toFloat? motor, ← required toFloat? iteration⟩
  | _ => none

end CycleTimes

namespace RoundTrip

def fieldNames : List String :=
  ["primitive_sequence_num", "ai_sent_time_seconds", "robot_received_time_seconds", "status_sent_time_seconds"]

def toJson (r : RoundTrip) : Json :=
  Wire.record (fieldNames.zip
    [ofNat r.sequence.toNat, ofFloat r.aiSent, ofFloat r.robotReceived, ofFloat r.statusSent])

def ofJson? (j : Json) : Option RoundTrip := do
  match ← j.fields? fieldNames with
  | [sequence, aiSent, robotReceived, statusSent] =>
    return ⟨UInt64.ofNat (← required (toNat? 0xFFFFFFFFFFFFFFFF) sequence), ← required toFloat? aiSent,
      ← required toFloat? robotReceived, ← required toFloat? statusSent⟩
  | _ => none

end RoundTrip

namespace NetworkStatus

def fieldNames : List String :=
  ["ms_since_last_primitive_received", "primitive_packet_loss_percentage", "primitive_round_trip"]

def toJson (n : NetworkStatus) : Json :=
  Wire.record (fieldNames.zip [ofFloat n.msSincePrimitive, ofFloat n.lossPercentage,
    match n.roundTrip with
    | some r => r.toJson
    | none => .null])

/-- The round trip may be left out of an object. -/
def ofJson? (j : Json) : Option NetworkStatus := do
  match ← j.fields? fieldNames with
  | [ms, loss, roundTrip] =>
    return ⟨← required toFloat? ms, ← required toFloat? loss,
      ← toOption? RoundTrip.ofJson? (roundTrip.getD .null)⟩
  | _ => none

end NetworkStatus

namespace RobotStatus

def fieldNames : List String :=
  ["robot_id", "last_handled_primitive_set", "time_sent", "thunderloop_status", "network_status", "power_status",
   "motor_status", "compute_status", "chipper_kicker_status", "primitive_executor_status", "error_code",
   "firmware_version", "date_flashed"]

def temperatureFields : List String := ["cpu_temperature"]

def firedFields : List String := ["ms_since_kicker_fired", "ms_since_chipper_fired"]

def executorFields : List String := ["running_stop", "timed_out"]

def toJson (s : RobotStatus) : Json :=
  Wire.record (fieldNames.zip
    [ofNat s.robotId.toNat, ofNat s.lastHandled.toNat, timestampToJson s.timeSent, s.cycleTimes.toJson,
     s.network.toJson, s.power.toJson, s.motor.toJson,
     Wire.record (temperatureFields.zip [ofFloat s.cpuTemperature]),
     Wire.record (firedFields.zip [ofFloat s.msSinceKicker, ofFloat s.msSinceChipper]),
     Wire.record (executorFields.zip [.bool s.runningStop, .bool s.timedOut]),
     Wire.names ErrorCode.name s.errorCodes, ofText s.firmwareVersion, ofText s.dateFlashed])

def temperature? (j : Json) : Option Float := do
  match ← j.fields? temperatureFields with
  | [temperature] => required toFloat? temperature
  | _ => none

def fired? (j : Json) : Option (Float × Float) := do
  match ← j.fields? firedFields with
  | [kicker, chipper] => return (← required toFloat? kicker, ← required toFloat? chipper)
  | _ => none

def executor? (j : Json) : Option (Bool × Bool) := do
  match ← j.fields? executorFields with
  | [runningStop, timedOut] => return (← required toBool? runningStop, ← required toBool? timedOut)
  | _ => none

def ofJson? (j : Json) : Option RobotStatus := do
  match ← j.fields? fieldNames with
  | [robotId, lastHandled, timeSent, cycleTimes, network, power, motor, compute, fired, executor, errorCodes,
      firmware, date] =>
    let (kicker, chipper) ← required fired? fired
    let (runningStop, timedOut) ← required executor? executor
    return ⟨UInt32.ofNat (← required (toNat? 0xFFFFFFFF) robotId),
      UInt64.ofNat (← required (toNat? 0xFFFFFFFFFFFFFFFF) lastHandled), ← required timestamp? timeSent,
      ← required CycleTimes.ofJson? cycleTimes, ← required NetworkStatus.ofJson? network,
      ← required PowerStatus.ofJson? power, ← required MotorStatus.ofJson? motor, ← required temperature? compute,
      kicker, chipper, runningStop, timedOut, ← required (toList? ErrorCode.ofJson?) errorCodes,
      ← required toText? firmware, ← required toText? date⟩
  | _ => none

instance : Wire RobotStatus := ⟨toJson, ofJson?⟩

end RobotStatus

namespace CrashReport

def fieldNames : List String := ["robot_id", "stack_dump", "exit_signal", "status"]

def toJson (c : CrashReport) : Json :=
  Wire.record (fieldNames.zip
    [ofNat c.robotId.toNat, ofText c.stackDump, ofText c.exitSignal, c.status.toJson])

def ofJson? (j : Json) : Option CrashReport := do
  match ← j.fields? fieldNames with
  | [robotId, stackDump, exitSignal, status] =>
    return ⟨UInt32.ofNat (← required (toNat? 0xFFFFFFFF) robotId), ← required toText? stackDump,
      ← required toText? exitSignal, ← required RobotStatus.ofJson? status⟩
  | _ => none

instance : Wire CrashReport := ⟨toJson, ofJson?⟩

end CrashReport

namespace TelemetryPacket

def fieldNames : List String :=
  ["robot_id", "epoch_time_s", "last_handled_primitive_set", "battery_voltage", "capacitor_voltage", "current_draw",
   "cpu_temperature", "iteration_time_ms", "error_code"]

def toJson (p : TelemetryPacket) : Json :=
  Wire.record (fieldNames.zip
    [ofNat p.robotId.toNat, ofFloat p.epochTime, ofNat p.lastHandled.toNat, ofSingle p.batteryVoltage,
     ofSingle p.capacitorVoltage, ofSingle p.currentDraw, ofFloat p.cpuTemperature, ofFloat p.iterationMs,
     Wire.names ErrorCode.name p.errorCodes])

def ofJson? (j : Json) : Option TelemetryPacket := do
  match ← j.fields? fieldNames with
  | [robotId, epochTime, lastHandled, battery, capacitor, current, temperature, iteration, errorCodes] =>
    return ⟨UInt32.ofNat (← required (toNat? 0xFFFFFFFF) robotId), ← required toFloat? epochTime,
      UInt64.ofNat (← required (toNat? 0xFFFFFFFFFFFFFFFF) lastHandled), ← required toSingle? battery,
      ← required toSingle? capacitor, ← required toSingle? current, ← required toFloat? temperature,
      ← required toFloat? iteration, ← required (toList? ErrorCode.ofJson?) errorCodes⟩
  | _ => none

instance : Wire TelemetryPacket := ⟨toJson, ofJson?⟩

end TelemetryPacket

end Onboard
