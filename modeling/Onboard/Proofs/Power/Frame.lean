import Onboard.Power.Frame

/-! Frames hold what was put into them: unwrapping gives the payload back, and a command's frame reads as that
command. -/

namespace Onboard

theorem Frame.unwrap_wrap {payload : Bytes} {length : Nat} (size : payload.length = length) (short : length < 256) :
    Frame.unwrap length (Frame.wrap payload) = .ok payload := by
  have whole : (Frame.wrap payload).length = length + Frame.overhead := by
    simp only [Frame.wrap, List.length_cons, List.length_append, length_littleEndian, size, Frame.overhead]
  have declared : (UInt8.ofNat payload.length).toNat = length := by
    rw [UInt8.toNat_ofNat', size, Nat.mod_eq_of_lt short]
  have checksum : UInt16.ofNat (ofLittleEndian (littleEndian 2 (Checksum.compute payload).toNat)) =
      Checksum.compute payload := by
    rw [ofLittleEndian_littleEndian, Nat.mod_eq_of_lt (UInt16.toNat_lt _), UInt16.ofNat_toNat]
  have taken : (payload ++ littleEndian 2 (Checksum.compute payload).toNat).take length = payload :=
    List.take_left' size
  have dropped : (payload ++ littleEndian 2 (Checksum.compute payload).toNat).drop length =
      littleEndian 2 (Checksum.compute payload).toNat := List.drop_left' size
  simp only [Frame.wrap, List.cons_append] at whole ⊢
  simp only [Frame.unwrap, whole, declared, taken, dropped, checksum, ne_eq, not_true_eq_false, if_false]

theorem PulseMode.ofCode_code (mode : PulseMode) : PulseMode.ofCode mode.code = .ok mode := by
  cases mode <;> rfl

namespace PulseCommand

theorem length_payload (c : PulseCommand) : c.payload.length = Frame.commandPayloadLength := by
  simp only [payload, List.length_cons, List.length_append, length_littleEndian, Frame.commandPayloadLength]

theorem ofLittleEndian_width (width : UInt32) :
    UInt32.ofNat (ofLittleEndian (littleEndian 4 width.toNat)) = width := by
  rw [ofLittleEndian_littleEndian, Nat.mod_eq_of_lt (UInt32.toNat_lt _), UInt32.ofNat_toNat]

theorem ofPayload_payload (c : PulseCommand) : ofPayload c.payload = .ok c := by
  have kick : (littleEndian 4 c.kickWidth.toNat ++ littleEndian 4 c.chipWidth.toNat).take 4 =
      littleEndian 4 c.kickWidth.toNat := List.take_left' (length_littleEndian _ _)
  have chip : (littleEndian 4 c.kickWidth.toNat ++ littleEndian 4 c.chipWidth.toNat).drop 4 =
      littleEndian 4 c.chipWidth.toNat := List.drop_left' (length_littleEndian _ _)
  simp only [ofPayload, payload, List.cons_append, List.headD_cons, PulseMode.ofCode_code, List.drop_succ_cons,
    List.drop_zero, kick, chip, List.take_of_length_le (Nat.le_of_eq (length_littleEndian 4 _)), ofLittleEndian_width]
  rfl

theorem ofFrame_toFrame (c : PulseCommand) : ofFrame c.toFrame = .ok c := by
  rw [ofFrame, toFrame, Frame.unwrap_wrap c.length_payload (by decide)]
  exact ofPayload_payload c

end PulseCommand

end Onboard
