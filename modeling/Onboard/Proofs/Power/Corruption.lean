import Onboard.Proofs.Power.Checksum
import Onboard.Proofs.Power.Codec

/-! Corruption that a frame cannot hide: an odd number of wrong bits, two wrong bits, or anything within two
neighbouring bytes of the payload. A frame that is accepted is one around some payload, so only the two payloads and
their checksums can differ, and the checksum of what differs has to vanish. -/

namespace Onboard

def differences (a b : Bytes) : Bytes :=
  List.zipWith (· ^^^ ·) a b

/-- The number of bits in which two strings of bytes differ. -/
def differingBits (a b : Bytes) : Nat :=
  ((differences a b).map fun byte => (Checksum.ones byte).length).sum

/-- Another string of the same length that differs in a way the checksum always finds. -/
structure Corrupted (sent received : Bytes) : Prop where
  size : received.length = sent.length
  changed : received ≠ sent
  kind : differingBits sent received % 2 = 1 ∨ differingBits sent received = 2 ∨
    ∃ i, 2 ≤ i ∧ i + 3 < sent.length ∧ ∀ j, j ≠ i → j ≠ i + 1 → received[j]? = sent[j]?

namespace Frame

theorem differingBits_append {a b c d : Bytes} (size : a.length = b.length) :
    differingBits (a ++ c) (b ++ d) = differingBits a b + differingBits c d := by
  rw [differingBits, differences, List.zipWith_append size, List.map_append, List.sum_append]
  rfl

theorem length_exponents (bytes : Bytes) :
    (Checksum.exponents bytes).length = (bytes.map fun byte => (Checksum.ones byte).length).sum := by
  induction bytes with
  | nil => rfl
  | cons byte rest ih =>
    rw [Checksum.exponents, List.length_append, List.length_map, ih, List.map_cons, List.sum_cons]

theorem bit_toUInt16 (n : Nat) (i : Nat) :
    Checksum.bit (UInt8.ofNat n).toUInt16 i = (decide (i < 8) && n.testBit i) := by
  rw [Checksum.bit, UInt8.toNat_toUInt16, UInt8.toNat_ofNat']
  exact Nat.testBit_mod_two_pow n 8 i

/-- A checksum is made up of the two bytes it is sent as. -/
theorem checksum_bytes (checksum : UInt16) :
    (UInt8.ofNat (checksum.toNat / 256)).toUInt16 <<< 8 ^^^ (UInt8.ofNat checksum.toNat).toUInt16 = checksum := by
  refine Checksum.ext_bit fun i inside => ?_
  rw [Checksum.bit_xor, Checksum.bit_shiftLeft_byte _ inside, bit_toUInt16, bit_toUInt16]
  by_cases low : i < 8
  · rw [decide_eq_true low, decide_eq_false (Nat.not_le_of_lt low)]
    simp [Checksum.bit]
  · have above : checksum.toNat.testBit i = (checksum.toNat / 2 ^ 8).testBit (i - 8) := by
      rw [Nat.testBit_div_two_pow, Nat.sub_add_cancel (Nat.le_of_not_lt low)]
    rw [decide_eq_false low, decide_eq_true (Nat.le_of_not_lt low), decide_eq_true (show i - 8 < 8 by omega),
      Checksum.bit, above]
    simp

/-- What differs between two frames, as the payloads' and then the checksums' differences. -/
def syndrome (p q : Bytes) : Bytes :=
  let sum := Checksum.compute
  differences p q ++
    [UInt8.ofNat ((sum p).toNat / 256) ^^^ UInt8.ofNat ((sum q).toNat / 256),
      UInt8.ofNat (sum p).toNat ^^^ UInt8.ofNat (sum q).toNat]

theorem length_exponents_syndrome {p q : Bytes} (size : p.length = q.length) :
    (Checksum.exponents (syndrome p q)).length = differingBits (wrap p) (wrap q) := by
  have headed (payload : Bytes) : wrap payload =
      [startByte, UInt8.ofNat payload.length] ++ (payload ++ littleEndian 2 (Checksum.compute payload).toNat) := rfl
  have head : differingBits [startByte, UInt8.ofNat q.length] [startByte, UInt8.ofNat q.length] = 0 := by
    simp [differingBits, differences, Checksum.ones]
  rw [headed, headed, size, differingBits_append rfl, differingBits_append size, head, length_exponents, syndrome,
    List.map_append, List.sum_append, Nat.zero_add, differingBits]
  simp [differingBits, differences, littleEndian, Nat.add_comm]

theorem residue_syndrome {p q : Bytes} (size : p.length = q.length) : Checksum.residue 0 (syndrome p q) = 0 := by
  have payloads : Checksum.run 0 (differences p q) = Checksum.compute p ^^^ Checksum.compute q := by
    rw [differences, ← UInt16.xor_self (a := Checksum.initial), Checksum.run_xor _ _ size]
    rfl
  rw [syndrome, Checksum.residue_append, payloads, UInt8.toUInt16_xor, UInt8.toUInt16_xor, UInt16.shiftLeft_xor,
    UInt16.xor_eq_zero_iff]
  conv => lhs; rw [← checksum_bytes (Checksum.compute p), ← checksum_bytes (Checksum.compute q)]
  ac_rfl

theorem differingBits_even {p q : Bytes} (size : p.length = q.length) :
    differingBits (wrap p) (wrap q) % 2 ≠ 1 := by
  rw [← length_exponents_syndrome size]
  exact fun odd => Checksum.residue_of_odd odd (residue_syndrome size)

theorem differingBits_ne_two {p q : Bytes} (size : p.length = q.length) (short : q.length ≤ 18) :
    differingBits (wrap p) (wrap q) ≠ 2 := by
  rw [← length_exponents_syndrome size]
  refine fun two => Checksum.residue_of_two two ?_ (residue_syndrome size)
  simp only [syndrome, differences, List.length_append, List.length_zipWith, List.length_cons, List.length_nil,
    Checksum.period]
  omega

theorem compute_pair_injective {before after : Bytes} {a b c d : UInt8}
    (same : Checksum.compute (before ++ [a, b] ++ after) = Checksum.compute (before ++ [c, d] ++ after)) :
    a = c ∧ b = d := by
  simp only [Checksum.compute, Checksum.run_append] at same
  exact Checksum.run_pair_injective (Checksum.run_injective same)

theorem eq_around_pair {bytes : Bytes} {k : Nat} (inside : k + 1 < bytes.length) :
    ∃ a b, bytes = bytes.take k ++ [a, b] ++ bytes.drop (k + 2) := by
  refine ⟨bytes[k], bytes[k + 1], ?_⟩
  rw [List.append_assoc, List.cons_append, List.cons_append, List.nil_append, ← List.drop_eq_getElem_cons inside,
    ← List.drop_eq_getElem_cons (Nat.lt_of_succ_lt inside), List.take_append_drop]

/-- Payloads that differ in two neighbouring bytes only have different checksums. -/
theorem eq_of_neighbours {p q : Bytes} {k : Nat} (size : p.length = q.length) (inside : k + 1 < q.length)
    (elsewhere : ∀ j, j ≠ k → j ≠ k + 1 → p[j]? = q[j]?) (same : Checksum.compute p = Checksum.compute q) : p = q := by
  have before : p.take k = q.take k := List.ext_getElem? fun j => by
    simp only [List.getElem?_take]
    split
    · exact elsewhere j (by omega) (by omega)
    · rfl
  have after : p.drop (k + 2) = q.drop (k + 2) := List.ext_getElem? fun j => by
    simp only [List.getElem?_drop]
    exact elsewhere _ (by omega) (by omega)
  obtain ⟨a, b, first⟩ := eq_around_pair (size ▸ inside)
  obtain ⟨c, d, second⟩ := eq_around_pair inside
  rw [before, after] at first
  have sums : Checksum.compute (q.take k ++ [a, b] ++ q.drop (k + 2)) =
      Checksum.compute (q.take k ++ [c, d] ++ q.drop (k + 2)) := by
    rw [← first, ← second]; exact same
  obtain ⟨rfl, rfl⟩ := compute_pair_injective sums
  rw [first, ← second]

/-- Where two frames agree, so do their payloads. -/
theorem getElem?_payload {p q : Bytes} {j : Nat} (size : p.length = q.length)
    (same : (wrap p)[j + 2]? = (wrap q)[j + 2]?) : p[j]? = q[j]? := by
  have body (payload : Bytes) :
      (wrap payload)[j + 2]? = (payload ++ littleEndian 2 (Checksum.compute payload).toNat)[j]? := rfl
  by_cases inside : j < q.length
  · rwa [body, body, List.getElem?_append_left (size ▸ inside), List.getElem?_append_left inside] at same
  · rw [List.getElem?_eq_none (by omega), List.getElem?_eq_none (by omega)]

theorem compute_eq_of_trailer {p q : Bytes} (size : p.length = q.length)
    (same : ∀ j, q.length + 2 ≤ j → (wrap p)[j]? = (wrap q)[j]?) : Checksum.compute p = Checksum.compute q := by
  have trailers : (wrap p).drop (q.length + 2) = (wrap q).drop (q.length + 2) := List.ext_getElem? fun j => by
    simp only [List.getElem?_drop]
    exact same _ (Nat.le_add_right _ j)
  simp only [wrap, List.cons_append, List.drop_succ_cons, List.drop_left' size, List.drop_left' rfl] at trailers
  rw [← ofLittleEndian_half (Checksum.compute p), trailers, ofLittleEndian_half]

/-- A frame that is accepted in place of another is not a corruption of it. -/
theorem unwrap_corrupted {payload frame : Bytes} (short : payload.length ≤ 18)
    (corrupted : Corrupted (wrap payload) frame) : ∃ e, unwrap payload.length frame = .error e := by
  cases result : unwrap payload.length frame with
  | error e => exact ⟨e, rfl⟩
  | ok found =>
    obtain ⟨size, rfl⟩ := wrap_of_unwrap result
    obtain ⟨-, changed, odd | two | ⟨i, first, last, elsewhere⟩⟩ := corrupted
    · exact absurd odd (differingBits_even size.symm)
    · exact absurd two (differingBits_ne_two size.symm (size ▸ short))
    · have inside : i + 3 < payload.length + 4 := by
        simpa [wrap, length_littleEndian] using last
      have sums : Checksum.compute found = Checksum.compute payload :=
        compute_eq_of_trailer size fun j trailer => elsewhere j (by omega) (by omega)
      have payloads : found = payload := eq_of_neighbours (k := i - 2) size (by omega)
        (fun j _ _ => getElem?_payload size (elsewhere _ (by omega) (by omega))) sums
      exact absurd (congrArg wrap payloads) changed

theorem length_wrap (payload : Bytes) : (wrap payload).length = payload.length + overhead := by
  simp only [wrap, List.length_cons, List.length_append, length_littleEndian, overhead]

theorem unwrap_of_length {length : Nat} {frame : Bytes} (wrong : frame.length ≠ length + overhead) :
    unwrap length frame = .error (.wrongLength (length + overhead) frame.length) := by
  match frame with
  | [] | [_] => rfl
  | _ :: _ :: _ => simp only [unwrap, if_pos wrong]

end Frame

theorem PulseCommand.ofFrame_of_unwrap {frame : Bytes} {e : FrameError}
    (refused : Frame.unwrap Frame.commandPayloadLength frame = .error e) : ofFrame frame = .error e := by
  rw [ofFrame, refused]
  rfl

theorem PowerStatus.ofFrame_of_unwrap {frame : Bytes} {e : FrameError}
    (refused : Frame.unwrap Frame.statusPayloadLength frame = .error e) : ofFrame frame = .error e := by
  rw [ofFrame, refused]
  rfl

/-- Neither decoder takes the frame. -/
def Refused (frame : Bytes) : Prop :=
  (∃ e, PulseCommand.ofFrame frame = .error e) ∧ ∃ e, PowerStatus.ofFrame frame = .error e

theorem corruption_refused :
    (∀ (c : PulseCommand) (frame : Bytes), Corrupted c.toFrame frame → Refused frame) ∧
    ∀ (s : PowerStatus) (frame : Bytes), Corrupted s.toFrame frame → Refused frame := by
  refine ⟨fun c frame corrupted => ?_, fun s frame corrupted => ?_⟩
  · have size : frame.length = Frame.commandPayloadLength + Frame.overhead := by
      rw [corrupted.size, PulseCommand.toFrame, Frame.length_wrap, c.length_payload]
    obtain ⟨e, refused⟩ := Frame.unwrap_corrupted (by rw [c.length_payload]; decide) corrupted
    rw [c.length_payload] at refused
    exact ⟨⟨e, PulseCommand.ofFrame_of_unwrap refused⟩,
      ⟨_, PowerStatus.ofFrame_of_unwrap (Frame.unwrap_of_length (by rw [size]; decide))⟩⟩
  · have size : frame.length = Frame.statusPayloadLength + Frame.overhead := by
      rw [corrupted.size, PowerStatus.toFrame, Frame.length_wrap, s.length_payload]
    obtain ⟨e, refused⟩ := Frame.unwrap_corrupted (by rw [s.length_payload]; decide) corrupted
    rw [s.length_payload] at refused
    exact ⟨⟨_, PulseCommand.ofFrame_of_unwrap (Frame.unwrap_of_length (by rw [size]; decide))⟩,
      ⟨e, PowerStatus.ofFrame_of_unwrap refused⟩⟩

/-- An idle command with the bit flipped that would make it a kick, and a status with two bits flipped. -/
theorem corruption_refused_flips :
    Refused (PulseCommand.idle.toFrame.set 2 PulseMode.kick.code) ∧
    Refused ((PowerStatus.initial.toFrame.set 5 0x40).set 14 1) :=
  ⟨corruption_refused.1 .idle _ ⟨by decide +kernel, by decide +kernel, .inl (by decide +kernel)⟩,
    corruption_refused.2 .initial _ ⟨by decide +kernel, by decide +kernel, .inr (.inl (by decide +kernel))⟩⟩

end Onboard
