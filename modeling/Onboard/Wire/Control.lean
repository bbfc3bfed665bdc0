import Onboard.Robot.Primitive
import Onboard.Wire.Basic

/-!
The wire form of primitives and of the demands they carry.
-/

namespace Onboard

open Json

namespace Velocity

def fieldNames : List String := ["x_m_per_s", "y_m_per_s", "angular_rad_per_s"]

def toJson (v : Velocity) : Json :=
  Wire.record (fieldNames.zip [ofFloat v.x, ofFloat v.y, ofFloat v.angular])

def ofJson? (j : Json) : Option Velocity := do
  match ← j.fields? fieldNames with
  | [x, y, angular] => return ⟨← required toFloat? x, ← required toFloat? y, ← required toFloat? angular⟩
  | _ => none

instance : Wire Velocity := ⟨toJson, ofJson?⟩

end Velocity

namespace MotorDemand

def toJson (m : MotorDemand) : Json :=
  Wire.record [("target_velocity", m.velocity.toJson), ("dribbler_speed_rpm", ofFloat m.dribbler)]

def ofJson? (j : Json) : Option MotorDemand := do
  match ← j.fields? ["target_velocity", "dribbler_speed_rpm"] with
  | [velocity, dribbler] => return ⟨← required Velocity.ofJson? velocity, ← required toFloat? dribbler⟩
  | _ => none

instance : Wire MotorDemand := ⟨toJson, ofJson?⟩

end MotorDemand

namespace ChickerCommand

def speedField : String := "speed_m_per_s"

def distanceField : String := "distance_m"

/-- The one field of a kick or a chip. -/
def readAmount? (field : String) (j : Json) : Option Float := do
  match ← j.fields? [field] with
  | [amount] => required toFloat? amount
  | _ => none

def commandToJson : ChickerCommand → Json
  | .idle => ofText "None"
  | .kick speed => Wire.variant "Kick" (Wire.record [(speedField, ofFloat speed)])
  | .chip distance => Wire.variant "Chip" (Wire.record [(distanceField, ofFloat distance)])
  | .autoKick speed => Wire.variant "AutoKick" (Wire.record [(speedField, ofFloat speed)])
  | .autoChip distance => Wire.variant "AutoChip" (Wire.record [(distanceField, ofFloat distance)])

def commandOfJson? (j : Json) : Option ChickerCommand := do
  match ← j.toVariant? with
  | ("None", none) => some .idle
  | ("None", some .null) => some .idle
  | ("Kick", some value) => (readAmount? speedField value).map .kick
  | ("Chip", some value) => (readAmount? distanceField value).map .chip
  | ("AutoKick", some value) => (readAmount? speedField value).map .autoKick
  | ("AutoChip", some value) => (readAmount? distanceField value).map .autoChip
  | _ => none

def toJson (c : ChickerCommand) : Json :=
  Wire.record [("chicker", c.commandToJson)]

def ofJson? (j : Json) : Option ChickerCommand := do
  match ← j.fields? ["chicker"] with
  | [command] => required commandOfJson? command
  | _ => none

instance : Wire ChickerCommand := ⟨toJson, ofJson?⟩

end ChickerCommand

namespace Primitive

def directFields : List String := ["motor_control", "power_control"]

def moveFields : List String :=
  ["target_velocity", "max_acceleration_m_per_s_2", "dribbler_speed_rpm", "power_control"]

def direct? (j : Json) : Option Primitive := do
  match ← j.fields? directFields with
  | [motor, power] =>
    return .direct (← required MotorDemand.ofJson? motor) (← required ChickerCommand.ofJson? power)
  | _ => none

def move? (j : Json) : Option Primitive := do
  match ← j.fields? moveFields with
  | [velocity, maxAcceleration, dribbler, power] =>
    return .move (← required Velocity.ofJson? velocity) (← required toFloat? maxAcceleration)
      (← required toFloat? dribbler) (← required ChickerCommand.ofJson? power)
  | _ => none

def toJson : Primitive → Json
  | .stop => ofText "Stop"
  | .direct motor power => Wire.variant "DirectControl" (Wire.record (directFields.zip [motor.toJson, power.toJson]))
  | .move velocity maxAcceleration dribbler power =>
    Wire.variant "Move"
      (Wire.record (moveFields.zip [velocity.toJson, ofFloat maxAcceleration, ofFloat dribbler, power.toJson]))

def ofJson? (j : Json) : Option Primitive := do
  match ← j.toVariant? with
  | ("Stop", none) => some .stop
  | ("Stop", some .null) => some .stop
  | ("DirectControl", some value) => direct? value
  | ("Move", some value) => move? value
  | _ => none

instance : Wire Primitive := ⟨toJson, ofJson?⟩

end Primitive

namespace RobotMap

/-- A robot's number as a key: digits without a zero in front, escapes or sign. -/
def key? (content : Bytes) : Option UInt32 :=
  if content.head? = some 0x30 ∧ content.length ≠ 1 ∨ content = [] then none
  else ((Json.number content).toNat? 0xFFFFFFFF).map UInt32.ofNat

def entry? (member : Bytes × Json) : Option (UInt32 × Primitive) := do
  return (← key? member.1, ← Primitive.ofJson? member.2)

def toJson (m : RobotMap) : Json :=
  .object (m.entries.map fun e => (ascii (toString e.1.toNat), e.2.toJson))

/-- Of entries with one key the last one holds. -/
def ofJson? : Json → Option RobotMap
  | .object members => (members.mapM entry?).map ofList
  | _ => none

instance : Wire RobotMap := ⟨toJson, ofJson?⟩

end RobotMap

def timestampFields : List String := ["epoch_timestamp_seconds"]

/-- A moment as seconds since the epoch. -/
def timestampToJson (seconds : Float) : Json :=
  Wire.record (timestampFields.zip [ofFloat seconds])

def timestamp? (j : Json) : Option Float := do
  match ← j.fields? timestampFields with
  | [seconds] => required toFloat? seconds
  | _ => none

namespace PrimitiveSet

def fieldNames : List String := ["sequence_number", "time_sent", "robot_primitives"]

def toJson (s : PrimitiveSet) : Json :=
  Wire.record (fieldNames.zip [ofNat s.sequence.toNat, timestampToJson s.timeSent, s.primitives.toJson])

def ofJson? (j : Json) : Option PrimitiveSet := do
  match ← j.fields? fieldNames with
  | [sequence, timeSent, primitives] =>
    return ⟨UInt64.ofNat (← required (toNat? 0xFFFFFFFFFFFFFFFF) sequence), ← required timestamp? timeSent,
      ← required RobotMap.ofJson? primitives⟩
  | _ => none

instance : Wire PrimitiveSet := ⟨toJson, ofJson?⟩

end PrimitiveSet

end Onboard
