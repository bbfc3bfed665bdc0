import Onboard.Text.Utf8

/-!
The sixteen-bit cyclic redundancy check of the power board's frames: polynomial `x^16 + x^12 + x^5 + 1`, all ones to
start with, most significant bit first. Bytes go in one at a time by `Checksum.step`.
-/

namespace Onboard.Checksum

/-- The register multiplied by `x` modulo the polynomial. -/
def shift (register : UInt16) : UInt16 :=
  if register &&& 0x8000 ≠ 0 then (register <<< 1) ^^^ 0x1021 else register <<< 1

def shiftTimes : Nat → UInt16 → UInt16
  | 0, register => register
  | n + 1, register => shiftTimes n (shift register)

def step (register : UInt16) (byte : UInt8) : UInt16 :=
  shiftTimes 8 (register ^^^ (byte.toUInt16 <<< 8))

/-- The register after all bytes, from a given start. -/
def run (register : UInt16) (bytes : Bytes) : UInt16 :=
  bytes.foldl step register

def initial : UInt16 := 0xFFFF

def compute (bytes : Bytes) : UInt16 :=
  run initial bytes

theorem run_append (register : UInt16) (a b : Bytes) : run register (a ++ b) = run (run register a) b := by
  simp [run]

end Onboard.Checksum
