import Onboard.Cause
import Onboard.Power.Checksum
import Onboard.Power.Pulse
import Onboard.Robot.Status
import Onboard.Text.Quoted

/-!
Frames on the serial line to the power board: a start byte, the length of the payload, the payload and its checksum,
all numbers with the least significant byte first. `wrap` builds a frame around a payload and `unwrap` takes the
payload out of one, naming the first check that fails.
-/

namespace Onboard

/-- The `width` low bytes of a number, least significant first. -/
def littleEndian : (width value : Nat) → Bytes
  | 0, _ => []
  | width + 1, value => UInt8.ofNat value :: littleEndian width (value / 256)

def ofLittleEndian : Bytes → Nat
  | [] => 0
  | b :: rest => b.toNat + 256 * ofLittleEndian rest

theorem length_littleEndian (width value : Nat) : (littleEndian width value).length = width := by
  induction width generalizing value with
  | zero => rfl
  | succ width ih => simp [littleEndian, ih]

theorem ofLittleEndian_littleEndian (width value : Nat) :
    ofLittleEndian (littleEndian width value) = value % Nat.pow 256 width := by
  induction width generalizing value with
  | zero => simp [littleEndian, ofLittleEndian, Nat.mod_one]
  | succ width ih =>
    simp [littleEndian, ofLittleEndian, ih, Nat.pow_succ', Nat.mod_mul]

/-- The first check that a frame fails. -/
inductive FrameError where
  | wrongLength (expected found : Nat)
  | badStartByte (found : UInt8)
  | badPayloadLength (found : UInt8)
  | badChecksum (found computed : UInt16)
  | unknownMode (found : UInt8)
  deriving DecidableEq

def FrameError.message : FrameError → String
  | .wrongLength expected found => s!"Expected a {expected} byte frame, got {found} bytes"
  | .badStartByte found => "Frame starts with 0x" ++ Text.upperHex 2 found.toNat ++ ", not the start byte"
  | .badPayloadLength found => s!"Frame declares a {found} byte payload"
  | .badChecksum found computed =>
    "Checksum mismatch: frame has 0x" ++ Text.upperHex 4 found.toNat ++ ", payload gives 0x"
      ++ Text.upperHex 4 computed.toNat
  | .unknownMode found => s!"Unknown pulse mode {found}"

instance : Cause FrameError where
  name
    | .wrongLength .. => "WrongLength"
    | .badStartByte _ => "BadStartByte"
    | .badPayloadLength _ => "BadPayloadLength"
    | .badChecksum .. => "BadChecksum"
    | .unknownMode _ => "UnknownMode"
  message := FrameError.message

namespace Frame

def startByte : UInt8 := 0xA5

def commandPayloadLength : Nat := 9

def statusPayloadLength : Nat := 15

def overhead : Nat := 4

def wrap (payload : Bytes) : Bytes :=
  startByte :: UInt8.ofNat payload.length :: payload ++ littleEndian 2 (Checksum.compute payload).toNat

def unwrap (payloadLength : Nat) (frame : Bytes) : Except FrameError Bytes :=
  match frame with
  | start :: declared :: body =>
    if frame.length ≠ payloadLength + overhead then .error (.wrongLength (payloadLength + overhead) frame.length)
    else if start ≠ startByte then .error (.badStartByte start)
    else if declared.toNat ≠ payloadLength then .error (.badPayloadLength declared)
    else
      let payload := body.take payloadLength
      let found := UInt16.ofNat (ofLittleEndian (body.drop payloadLength))
      let computed := Checksum.compute payload
      if found ≠ computed then .error (.badChecksum found computed) else .ok payload
  | _ => .error (.wrongLength (payloadLength + overhead) frame.length)

end Frame

namespace PulseMode

def code : PulseMode → UInt8
  | .idle => 0
  | .kick => 1
  | .chip => 2
  | .autoKick => 3
  | .autoChip => 4

def ofCode (code : UInt8) : Except FrameError PulseMode :=
  if code = 0 then .ok .idle
  else if code = 1 then .ok .kick
  else if code = 2 then .ok .chip
  else if code = 3 then .ok .autoKick
  else if code = 4 then .ok .autoChip
  else .error (.unknownMode code)

end PulseMode

namespace PulseCommand

def payload (c : PulseCommand) : Bytes :=
  c.mode.code :: littleEndian 4 c.kickWidth.toNat ++ littleEndian 4 c.chipWidth.toNat

def ofPayload (payload : Bytes) : Except FrameError PulseCommand := do
  let mode ← PulseMode.ofCode (payload.headD 0xFF)
  let kickWidth := UInt32.ofNat (ofLittleEndian ((payload.drop 1).take 4))
  let chipWidth := UInt32.ofNat (ofLittleEndian ((payload.drop 5).take 4))
  return ⟨mode, kickWidth, chipWidth⟩

def toFrame (c : PulseCommand) : Bytes :=
  Frame.wrap c.payload

def ofFrame (frame : Bytes) : Except FrameError PulseCommand :=
  Frame.unwrap Frame.commandPayloadLength frame >>= ofPayload

end PulseCommand

namespace PowerStatus

/-- The bit of the flags that tells of the break beam; the other seven are unused. -/
def breakbeamFlag : UInt8 := 1

def payload (s : PowerStatus) : Bytes :=
  littleEndian 4 s.batteryVoltage.bits.toNat ++ littleEndian 4 s.capacitorVoltage.bits.toNat
    ++ littleEndian 4 s.currentDraw.bits.toNat ++ littleEndian 2 s.sequence.toNat
    ++ [if s.breakbeamTripped then breakbeamFlag else 0]

def ofPayload (payload : Bytes) : PowerStatus :=
  let single (start : Nat) : Single := ⟨UInt32.ofNat (ofLittleEndian ((payload.drop start).take 4))⟩
  let sequence := UInt16.ofNat (ofLittleEndian ((payload.drop 12).take 2))
  let flags := (payload.drop 14).headD 0
  ⟨single 0, single 4, single 8, flags &&& breakbeamFlag ≠ 0, sequence⟩

def toFrame (s : PowerStatus) : Bytes :=
  Frame.wrap s.payload

def ofFrame (frame : Bytes) : Except FrameError PowerStatus :=
  (Frame.unwrap Frame.statusPayloadLength frame).map ofPayload

end PowerStatus

end Onboard
