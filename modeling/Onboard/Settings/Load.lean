import Onboard.Cause
import Onboard.Host.Path
import Onboard.Settings.Basic
import Onboard.Toml.Document

/-!
Settings from TOML files below the software's root. A file may hold more than is asked for, and a group of settings
may stand as a table or as an array of exactly its values in order.
-/

namespace Onboard

open Toml

inductive LoadError where
  | rootNotSet
  | file (path : String) (cause : IoFailure)
  | format (path : String)
  deriving DecidableEq

namespace LoadError

/-- The variable that names the root of the robot's software. -/
def rootVariable : String := "THUNDER_SW_ROOT"

/-- The message; where a file has a fault of form is not part of it. -/
def message : LoadError → String
  | .rootNotSet => "The software root environment variable (" ++ rootVariable ++ ") is not set"
  | .file path cause => "Cannot load the parameter file " ++ Text.quoted path ++ ": " ++ cause.message
  | .format path => "Cannot parse the parameter file " ++ Text.quoted path

instance : Cause LoadError where
  name
    | .rootNotSet => "SwRootNotSet"
    | .file .. => "FileLoadError"
    | .format _ => "DeserialiseError"
  message := LoadError.message

end LoadError

namespace Toml

/-- The value of a name that occurs at most once. -/
def single? (name : String) (entries : List (String × Value)) : Option (Option Value) :=
  match entries.filter fun e => e.1 = name with
  | [] => some none
  | [e] => some (some e.2)
  | _ => none

/-- The values of fields in order, where they are present; each at most once. -/
def tableFields? (names : List String) (entries : List (String × Value)) : Option (List (Option Value)) :=
  names.mapM fun name => single? name entries

def fields? (names : List String) : Value → Option (List (Option Value))
  | .table entries => tableFields? names entries
  | .dotted entries => tableFields? names entries
  | .array items => if items.length = names.length then some (items.map some) else none
  | _ => none

def required {α : Type} (item : Value → Option α) (field : Option Value) : Option α :=
  field.bind item

def toText? : Value → Option String
  | .text s => some s
  | _ => none

def toBool? : Value → Option Bool
  | .boolean b => some b
  | _ => none

def toNat? (limit : Nat) : Value → Option Nat
  | .integer n => if 0 ≤ n ∧ n ≤ limit then some n.toNat else none
  | _ => none

def toFloat? : Value → Option Float
  | .integer n => some (Double.ofInt n)
  | .float x => some x
  | _ => none

/-- Whole numbers are rounded to a single at once, others by way of a double. -/
def toSingle? : Value → Option Single
  | .integer n => some (Single.ofParts (n < 0) (BinaryFormat.single.roundRatio n.natAbs 1))
  | .float x => some (Single.ofFloat x)
  | _ => none

end Toml

class Loadable (α : Type) where
  ofTable? : List (String × Value) → Option α

def KickCalibration.ofToml? (v : Value) : Option KickCalibration := do
  match ← Toml.fields? ["kick_coeff", "kick_constant", "chip_pulse_width"] v with
  | [coefficient, constant, width] =>
    return ⟨← required toFloat? coefficient, UInt32.ofNat (← required (toNat? 0xFFFFFFFF) constant),
      UInt32.ofNat (← required (toNat? 0xFFFFFFFF) width)⟩
  | _ => none

def FaultThresholds.ofToml? (v : Value) : Option FaultThresholds := do
  match ← Toml.fields? ["low_battery_v", "high_cap_v", "high_board_temp_c"] v with
  | [battery, capacitor, temperature] =>
    return ⟨← required toSingle? battery, ← required toSingle? capacitor, ← required toFloat? temperature⟩
  | _ => none

instance : Loadable RobotSettings where
  ofTable? entries := do
    match ← tableFields? ["robot_id", "channel_id", "network_interface", "calibration"] entries with
    | [robotId, channel, networkInterface, calibration] =>
      return ⟨UInt32.ofNat (← required (toNat? 0xFFFFFFFF) robotId),
        UInt64.ofNat (← required (toNat? 0xFFFFFFFFFFFFFFFF) channel), ← required toText? networkInterface,
        ← required KickCalibration.ofToml? calibration⟩
    | _ => none

instance : Loadable LoopSettings where
  ofTable? entries := do
    let names := ["loop_hz", "status_rate_hz", "primitive_rate_hz", "packet_timeout_ms", "peripheral_timeout_ms",
      "thresholds", "cpu_temperature_path", "kernel_log_path", "firmware_version_path", "date_flashed_path"]
    match ← tableFields? names entries with
    | [loop, status, primitive, packet, peripheral, thresholds, temperature, kernelLog, firmware, date] =>
      return ⟨← required toFloat? loop, ← required toFloat? status, ← required toFloat? primitive,
        ← required toFloat? packet, ← required toFloat? peripheral, ← required FaultThresholds.ofToml? thresholds,
        ← required toText? temperature, ← required toText? kernelLog, ← required toText? firmware,
        ← required toText? date⟩
    | _ => none

instance : Loadable PowerSettings where
  ofTable? entries := do
    match ← tableFields? ["device", "baud_rate", "read_timeout_ms"] entries with
    | [device, baudRate, readTimeout] =>
      return ⟨← required toText? device, UInt32.ofNat (← required (toNat? 0xFFFFFFFF) baudRate),
        UInt64.ofNat (← required (toNat? 0xFFFFFFFFFFFFFFFF) readTimeout)⟩
    | _ => none

instance : Loadable NetworkSettings where
  ofTable? entries := do
    let names := ["primitive_port", "robot_status_port", "robot_crash_port", "network_test_port",
      "local_primitive_path", "audit_primitives", "tm_endpoint"]
    let port (field : Option Value) : Option UInt16 := (required (toNat? 0xFFFF) field).map UInt16.ofNat
    match ← tableFields? names entries with
    | [primitive, status, crash, test, localPath, audit, endpoint] =>
      let localPath ← match localPath with
        | none => some none
        | some v => (toText? v).map some
      return ⟨← port primitive, ← port status, ← port crash, ← port test, localPath, ← required toBool? audit,
        ← required toText? endpoint⟩
    | _ => none

def ofFile {α : Type} [Loadable α] (path : String) (contents : Except IoFailure String) : Except LoadError α :=
  match contents with
  | .error cause => .error (.file path cause)
  | .ok text =>
    match (Toml.parse? text).bind Loadable.ofTable? with
    | some settings => .ok settings
    | none => .error (.format path)

/-- Settings from a file of the directory for settings below the root. -/
def loadSettings {α : Type} [Loadable α] (root : Option String) (file : String)
    (read : String → Except IoFailure String) : Except LoadError α :=
  match root with
  | none => .error .rootNotSet
  | some root =>
    let path := Path.join (Path.join root "params") file
    ofFile path (read path)

end Onboard
