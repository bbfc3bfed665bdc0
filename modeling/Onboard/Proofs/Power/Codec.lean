import Mathlib
import Onboard.Proofs.Power.Frame

/-! Frames and what they say. A command has one frame and a frame at most one command; a status frame is any payload of
the right length with its head and checksum, and what it says fixes the payload but for the unused flags and the
payloads of not-a-numbers. A frame that is refused fails the checks in their order. -/

namespace Onboard

theorem ofLittleEndian_lt (bytes : Bytes) : ofLittleEndian bytes < 256 ^ bytes.length := by
  induction bytes with
  | nil => exact Nat.one_pos
  | cons b rest ih =>
    have byte := b.toNat_lt
    rw [ofLittleEndian, List.length_cons, Nat.pow_succ]
    omega

theorem littleEndian_ofLittleEndian (bytes : Bytes) : littleEndian bytes.length (ofLittleEndian bytes) = bytes := by
  induction bytes with
  | nil => rfl
  | cons b rest ih =>
    have byte := b.toNat_lt
    have low : UInt8.ofNat (b.toNat + 256 * ofLittleEndian rest) = b := by
      apply UInt8.toNat_inj.mp
      rw [UInt8.toNat_ofNat']
      omega
    have high : (b.toNat + 256 * ofLittleEndian rest) / 256 = ofLittleEndian rest := by omega
    rw [ofLittleEndian, List.length_cons, littleEndian, low, high, ih]

theorem littleEndian_half {bytes : Bytes} (size : bytes.length = 2) :
    littleEndian 2 (UInt16.ofNat (ofLittleEndian bytes)).toNat = bytes := by
  have fits : ofLittleEndian bytes < 2 ^ 16 := by simpa [size] using ofLittleEndian_lt bytes
  rw [UInt16.toNat_ofNat', Nat.mod_eq_of_lt fits, ← size, littleEndian_ofLittleEndian]

theorem ofLittleEndian_half (half : UInt16) : UInt16.ofNat (ofLittleEndian (littleEndian 2 half.toNat)) = half := by
  rw [ofLittleEndian_littleEndian, Nat.mod_eq_of_lt (UInt16.toNat_lt _), UInt16.ofNat_toNat]

theorem littleEndian_word {bytes : Bytes} (size : bytes.length = 4) :
    littleEndian 4 (UInt32.ofNat (ofLittleEndian bytes)).toNat = bytes := by
  have fits : ofLittleEndian bytes < 2 ^ 32 := by simpa [size] using ofLittleEndian_lt bytes
  rw [UInt32.toNat_ofNat', Nat.mod_eq_of_lt fits, ← size, littleEndian_ofLittleEndian]

/-- A check of a frame, and the error of those that fail it. -/
structure FrameCheck where
  passed : Bool
  error : FrameError

def firstFailure (checks : List FrameCheck) : Option FrameError :=
  (checks.find? fun check => !check.passed).map FrameCheck.error

@[simp] theorem firstFailure_nil : firstFailure [] = none := rfl

@[simp] theorem firstFailure_cons (check : FrameCheck) (rest : List FrameCheck) :
    firstFailure (check :: rest) = if check.passed then firstFailure rest else some check.error := by
  cases passed : check.passed <;> simp [firstFailure, passed]

namespace Frame

def payloadOf (length : Nat) (frame : Bytes) : Bytes :=
  (frame.drop 2).take length

def checksumOf (length : Nat) (frame : Bytes) : UInt16 :=
  UInt16.ofNat (ofLittleEndian (frame.drop (length + 2)))

/-- What has to hold of a frame around a payload of this length. -/
def checks (length : Nat) (frame : Bytes) : List FrameCheck :=
  [⟨frame.length = length + overhead, .wrongLength (length + overhead) frame.length⟩,
   ⟨frame.getD 0 0 = startByte, .badStartByte (frame.getD 0 0)⟩,
   ⟨(frame.getD 1 0).toNat = length, .badPayloadLength (frame.getD 1 0)⟩,
   ⟨checksumOf length frame = Checksum.compute (payloadOf length frame),
    .badChecksum (checksumOf length frame) (Checksum.compute (payloadOf length frame))⟩]

/-- Unwrapping makes the checks in their order. -/
theorem unwrap_eq (length : Nat) (frame : Bytes) :
    unwrap length frame = match firstFailure (checks length frame) with
      | some e => .error e
      | none => .ok (payloadOf length frame) := by
  match frame with
  | [] | [_] =>
    have short : ∀ n, ¬ 0 = n + overhead ∧ ¬ 0 + 1 = n + overhead := fun n => by simp only [overhead]; omega
    simp [unwrap, checks, firstFailure, short]
  | start :: declared :: body =>
    simp only [unwrap, checks, payloadOf, checksumOf, List.getD_cons_zero, List.getD_cons_succ, List.drop_succ_cons,
      List.drop_zero, firstFailure_cons, firstFailure_nil, decide_eq_true_eq, ne_eq, ite_not]
    generalize (start :: declared :: body).length = size
    by_cases fits : size = length + overhead
    case neg => simp only [if_neg fits]
    by_cases head : start = startByte
    case neg => simp only [if_pos fits, if_neg head]
    by_cases count : declared.toNat = length
    case neg => simp only [if_pos fits, if_pos head, if_neg count]
    by_cases sum : UInt16.ofNat (ofLittleEndian (body.drop length)) = Checksum.compute (body.take length)
    case neg => simp only [if_pos fits, if_pos head, if_pos count, if_neg sum]
    case pos => simp only [if_pos fits, if_pos head, if_pos count, if_pos sum]

theorem wrap_of_unwrap {length : Nat} {frame payload : Bytes} (accepted : unwrap length frame = .ok payload) :
    payload.length = length ∧ frame = wrap payload := by
  match frame with
  | [] | [_] => cases accepted
  | start :: declared :: body =>
    simp only [unwrap, ne_eq, ite_not] at accepted
    split at accepted
    case isFalse => cases accepted
    split at accepted
    case isFalse => cases accepted
    split at accepted
    case isFalse => cases accepted
    split at accepted
    case isFalse => cases accepted
    rename_i size head count sum
    cases accepted
    simp only [List.length_cons, overhead] at size
    have taken : (body.take length).length = length := by rw [List.length_take]; omega
    have trailer : (body.drop length).length = 2 := by rw [List.length_drop]; omega
    refine ⟨taken, ?_⟩
    rw [wrap, taken, ← count, UInt8.ofNat_toNat, count, head, ← sum, littleEndian_half trailer, List.cons_append,
      List.cons_append, List.take_append_drop]

theorem unwrap_eq_error_iff (length : Nat) (frame : Bytes) (e : FrameError) :
    unwrap length frame = .error e ↔ firstFailure (checks length frame) = some e := by
  rw [unwrap_eq]
  cases firstFailure (checks length frame) <;> simp

/-- The bytes of an index range, if all of it lies within. -/
def slice? (bytes : Bytes) (first last : Nat) : Option Bytes :=
  if first ≤ last ∧ last ≤ bytes.length then some ((bytes.take last).drop first) else none

/-- Unwrapping by index; there is no result where an index lies out of bounds. -/
def unwrapIndexed? (length : Nat) (frame : Bytes) : Option (Except FrameError Bytes) := do
  if frame.length ≠ length + overhead then return .error (.wrongLength (length + overhead) frame.length)
  let start ← frame[0]?
  if start ≠ startByte then return .error (.badStartByte start)
  let declared ← frame[1]?
  if declared.toNat ≠ length then return .error (.badPayloadLength declared)
  let payload ← slice? frame 2 (length + 2)
  let low ← frame[length + 2]?
  let high ← frame[length + 3]?
  let found := UInt16.ofNat (ofLittleEndian [low, high])
  let computed := Checksum.compute payload
  if found ≠ computed then return .error (.badChecksum found computed)
  return .ok payload

theorem unwrapIndexed?_eq (length : Nat) (frame : Bytes) :
    unwrapIndexed? length frame = some (unwrap length frame) := by
  match frame with
  | [] | [_] =>
    have short : ∀ n, ¬ 0 = n + overhead ∧ ¬ 0 + 1 = n + overhead := fun n => by simp only [overhead]; omega
    simp [unwrapIndexed?, unwrap, short]
  | start :: declared :: body =>
    simp only [unwrapIndexed?, unwrap, ne_eq, ite_not, List.getElem?_cons_zero, List.getElem?_cons_succ, slice?,
      Option.bind_eq_bind, Option.bind_some, List.take_succ_cons, List.drop_succ_cons, List.drop_zero]
    by_cases fits : (start :: declared :: body).length = length + overhead
    case neg => simp only [if_neg fits]; rfl
    have whole : body.length = length + 2 := by simp only [List.length_cons, overhead] at fits; omega
    have inside : 2 ≤ length + 2 ∧ length + 2 ≤ (start :: declared :: body).length := by
      simp only [List.length_cons]; omega
    obtain ⟨low, high, trailer⟩ : ∃ low high, body.drop length = [low, high] :=
      List.length_eq_two.mp (by rw [List.length_drop]; omega)
    have first : body[length]? = some low := by rw [← List.head?_drop, trailer, List.head?_cons]
    have second : body[length + 1]? = some high := by
      rw [← List.getElem?_drop, trailer, List.getElem?_cons_succ, List.getElem?_cons_zero]
    simp only [if_pos fits, if_pos inside, first, second, trailer, Option.bind_some]
    repeat' split
    all_goals rfl

end Frame

namespace PulseMode

theorem ofCode_of_unknown {code : UInt8} (unknown : ∀ mode : PulseMode, code ≠ mode.code) :
    ofCode code = .error (.unknownMode code) := by
  have idle : code ≠ 0 := unknown .idle
  have kick : code ≠ 1 := unknown .kick
  have chip : code ≠ 2 := unknown .chip
  have autoKick : code ≠ 3 := unknown .autoKick
  have autoChip : code ≠ 4 := unknown .autoChip
  rw [ofCode, if_neg idle, if_neg kick, if_neg chip, if_neg autoKick, if_neg autoChip]

/-- A mode has one code, and every other byte is an unknown mode. -/
theorem ofCode_cases (code : UInt8) :
    (∃ mode, code = mode.code ∧ ofCode code = .ok mode) ∨
    (∀ mode : PulseMode, code ≠ mode.code) ∧ ofCode code = .error (.unknownMode code) := by
  by_cases known : ∃ mode : PulseMode, code = mode.code
  · obtain ⟨mode, rfl⟩ := known
    exact .inl ⟨mode, rfl, ofCode_code mode⟩
  · have unknown : ∀ mode : PulseMode, code ≠ mode.code := fun mode same => known ⟨mode, same⟩
    exact .inr ⟨unknown, ofCode_of_unknown unknown⟩

theorem mem_all (mode : PulseMode) : mode ∈ all := by
  cases mode <;> decide

/-- What a byte has to satisfy to be read as a mode. -/
def check (code : UInt8) : FrameCheck :=
  ⟨all.any fun mode => code = mode.code, .unknownMode code⟩

theorem ofCode_eq_error_iff (code : UInt8) (e : FrameError) :
    ofCode code = .error e ↔ firstFailure [check code] = some e := by
  obtain ⟨mode, same, result⟩ | ⟨unknown, result⟩ := ofCode_cases code
  · have passed : (check code).passed := List.any_eq_true.mpr ⟨mode, mem_all mode, decide_eq_true same⟩
    simp [result, passed]
  · have failed : ¬ (check code).passed := fun passed => by
      obtain ⟨mode, -, same⟩ := List.any_eq_true.mp passed
      exact unknown mode (of_decide_eq_true same)
    rw [firstFailure_cons, if_neg failed, result]
    simp [check]

end PulseMode

theorem firstFailure_append (first second : List FrameCheck) :
    firstFailure (first ++ second) = (firstFailure first).or (firstFailure second) := by
  simp only [firstFailure, List.find?_append, Option.map_or]

namespace PulseCommand

/-- The checks of a command frame: those of every frame, and that it has a mode. -/
def checks (frame : Bytes) : List FrameCheck :=
  Frame.checks Frame.commandPayloadLength frame ++ [PulseMode.check (frame.getD 2 0)]

theorem ofPayload_eq_ok {payload : Bytes} {c : PulseCommand} (size : payload.length = Frame.commandPayloadLength)
    (read : ofPayload payload = .ok c) : payload = c.payload := by
  match payload with
  | [] => cases size
  | code :: widths =>
    have rest : widths.length = 8 := Nat.succ.inj size
    simp only [ofPayload, List.headD_cons, List.drop_succ_cons, List.drop_zero] at read
    obtain ⟨mode, rfl, result⟩ | ⟨-, result⟩ := PulseMode.ofCode_cases code
    · simp only [result] at read
      cases read
      have kick : (widths.take 4).length = 4 := by rw [List.length_take]; omega
      have chip : ((widths.drop 4).take 4).length = 4 := by rw [List.length_take, List.length_drop]; omega
      have last : (widths.drop 4).take 4 = widths.drop 4 := List.take_of_length_le (by rw [List.length_drop]; omega)
      rw [PulseCommand.payload, littleEndian_word kick, littleEndian_word chip, last, List.cons_append,
        List.take_append_drop]
    · rw [result] at read
      cases read

theorem ofFrame_eq_ok_iff (frame : Bytes) (c : PulseCommand) : ofFrame frame = .ok c ↔ frame = c.toFrame := by
  constructor
  · intro read
    cases unwrapped : Frame.unwrap Frame.commandPayloadLength frame with
    | error e => rw [ofFrame, unwrapped] at read; cases read
    | ok payload =>
      rw [ofFrame, unwrapped] at read
      obtain ⟨size, built⟩ := Frame.wrap_of_unwrap unwrapped
      rw [built, ofPayload_eq_ok size read, toFrame]
  · rintro rfl
    exact ofFrame_toFrame c

theorem ofPayload_eq_error_iff (payload : Bytes) (e : FrameError) :
    ofPayload payload = .error e ↔ PulseMode.ofCode (payload.headD 0xFF) = .error e := by
  rw [ofPayload]
  cases PulseMode.ofCode (payload.headD 0xFF) with
  | error found =>
    constructor
    · intro failed
      cases failed
      rfl
    · intro failed
      cases failed
      rfl
  | ok mode =>
    constructor
    · intro failed
      cases failed
    · intro failed
      cases failed

theorem headD_payload {frame : Bytes} (size : frame.length = Frame.commandPayloadLength + Frame.overhead) :
    (Frame.payloadOf Frame.commandPayloadLength frame).headD 0xFF = frame.getD 2 0 := by
  match frame with
  | _ :: _ :: _ :: _ => rfl

theorem ofFrame_eq_error_iff (frame : Bytes) (e : FrameError) :
    ofFrame frame = .error e ↔ firstFailure (checks frame) = some e := by
  rw [checks, firstFailure_append, ofFrame, Frame.unwrap_eq]
  cases failure : firstFailure (Frame.checks Frame.commandPayloadLength frame) with
  | some found => simp [bind, Except.bind]
  | none =>
    have size : frame.length = Frame.commandPayloadLength + Frame.overhead := by
      by_contra wrong
      simp [Frame.checks, wrong] at failure
    rw [Option.none_or, ← PulseMode.ofCode_eq_error_iff, ← headD_payload size]
    exact ofPayload_eq_error_iff _ e

end PulseCommand

/-- The same number, or not a number either time. -/
def Single.Same (x y : Single) : Prop :=
  x = y ∨ x.isNaN ∧ y.isNaN

namespace PowerStatus

/-- The same reading, any two not-a-numbers counting as equal. -/
structure Same (s t : PowerStatus) : Prop where
  battery : s.batteryVoltage.Same t.batteryVoltage
  capacitor : s.capacitorVoltage.Same t.capacitorVoltage
  current : s.currentDraw.Same t.currentDraw
  breakbeam : s.breakbeamTripped = t.breakbeamTripped
  sequence : s.sequence = t.sequence

/-- The three numbers of a payload start here. -/
def numberOffsets : List Nat := [0, 4, 8]

def numberAt (payload : Bytes) (start : Nat) : Bytes :=
  (payload.drop start).take 4

def singleAt (payload : Bytes) (start : Nat) : Single :=
  ⟨UInt32.ofNat (ofLittleEndian (numberAt payload start))⟩

def sequenceBytes (payload : Bytes) : Bytes :=
  (payload.drop 12).take 2

def flags (payload : Bytes) : UInt8 :=
  (payload.drop 14).headD 0

/-- Payloads that differ in the unused flags and in the bytes of not-a-numbers only. -/
structure Agree (a b : Bytes) : Prop where
  numbers : ∀ start ∈ numberOffsets,
    numberAt a start = numberAt b start ∨ (singleAt a start).isNaN ∧ (singleAt b start).isNaN
  sequence : sequenceBytes a = sequenceBytes b
  breakbeam : flags a &&& breakbeamFlag = flags b &&& breakbeamFlag

theorem ofPayload_eq (payload : Bytes) :
    ofPayload payload = ⟨singleAt payload 0, singleAt payload 4, singleAt payload 8,
      flags payload &&& breakbeamFlag ≠ 0, UInt16.ofNat (ofLittleEndian (sequenceBytes payload))⟩ := rfl

theorem length_payload (s : PowerStatus) : s.payload.length = Frame.statusPayloadLength := by
  simp only [payload, List.length_append, length_littleEndian, List.length_cons, List.length_nil,
    Frame.statusPayloadLength]

theorem ofPayload_payload (s : PowerStatus) : ofPayload s.payload = s := by
  have battery : numberAt s.payload 0 = littleEndian 4 s.batteryVoltage.bits.toNat := rfl
  have capacitor : numberAt s.payload 4 = littleEndian 4 s.capacitorVoltage.bits.toNat := rfl
  have current : numberAt s.payload 8 = littleEndian 4 s.currentDraw.bits.toNat := rfl
  have sequence : sequenceBytes s.payload = littleEndian 2 s.sequence.toNat := rfl
  have breakbeam : flags s.payload = if s.breakbeamTripped then breakbeamFlag else 0 := rfl
  have tripped : decide (flags s.payload &&& breakbeamFlag ≠ 0) = s.breakbeamTripped := by
    rw [breakbeam]
    cases s.breakbeamTripped <;> rfl
  rw [ofPayload_eq, tripped]
  simp only [singleAt, battery, capacitor, current, sequence, PulseCommand.ofLittleEndian_width, ofLittleEndian_half]

theorem ofFrame_toFrame (s : PowerStatus) : ofFrame s.toFrame = .ok s := by
  rw [ofFrame, toFrame, Frame.unwrap_wrap s.length_payload (by decide)]
  exact congrArg _ (ofPayload_payload s)

theorem singleAt_same_iff {a b : Bytes} {start : Nat} (first : (numberAt a start).length = 4)
    (second : (numberAt b start).length = 4) :
    (singleAt a start).Same (singleAt b start) ↔
      numberAt a start = numberAt b start ∨ (singleAt a start).isNaN ∧ (singleAt b start).isNaN := by
  refine or_congr_left ⟨fun same => ?_, fun same => by rw [singleAt, singleAt, same]⟩
  rw [← littleEndian_word first, ← littleEndian_word second]
  exact congrArg (fun x : Single => littleEndian 4 x.bits.toNat) same

theorem and_breakbeamFlag (flags : UInt8) : flags &&& breakbeamFlag = 0 ∨ flags &&& breakbeamFlag = breakbeamFlag := by
  have low : (flags &&& breakbeamFlag).toNat = flags.toNat % 2 := by
    rw [UInt8.toNat_and]; exact Nat.and_one_is_mod _
  obtain even | odd := Nat.mod_two_eq_zero_or_one flags.toNat
  · exact .inl (UInt8.toNat_inj.mp (low.trans even))
  · exact .inr (UInt8.toNat_inj.mp (low.trans odd))

theorem tripped_eq_iff (a b : UInt8) :
    decide (a &&& breakbeamFlag ≠ 0) = decide (b &&& breakbeamFlag ≠ 0) ↔
      a &&& breakbeamFlag = b &&& breakbeamFlag := by
  obtain first | first := and_breakbeamFlag a <;> obtain second | second := and_breakbeamFlag b <;>
    rw [first, second] <;> decide

theorem same_ofPayload_iff {a b : Bytes} (first : a.length = Frame.statusPayloadLength)
    (second : b.length = Frame.statusPayloadLength) : (ofPayload a).Same (ofPayload b) ↔ Agree a b := by
  rw [Frame.statusPayloadLength] at first second
  have numberSize {payload : Bytes} {start : Nat} (size : payload.length = 15) (inside : start + 4 ≤ 15) :
      (numberAt payload start).length = 4 := by
    rw [numberAt, List.length_take, List.length_drop, size]
    omega
  have number {start : Nat} (inside : start + 4 ≤ 15) :=
    singleAt_same_iff (numberSize first inside) (numberSize second inside)
  have sequenceSize {payload : Bytes} (size : payload.length = 15) : (sequenceBytes payload).length = 2 := by
    rw [sequenceBytes, List.length_take, List.length_drop, size]
    rfl
  have counter : UInt16.ofNat (ofLittleEndian (sequenceBytes a)) = UInt16.ofNat (ofLittleEndian (sequenceBytes b)) ↔
      sequenceBytes a = sequenceBytes b := by
    refine ⟨fun same => ?_, fun same => by rw [same]⟩
    rw [← littleEndian_half (sequenceSize first), ← littleEndian_half (sequenceSize second), same]
  rw [ofPayload_eq, ofPayload_eq]
  constructor
  · rintro ⟨battery, capacitor, current, breakbeam, sequence⟩
    refine ⟨fun start member => ?_, counter.mp sequence, (tripped_eq_iff _ _).mp breakbeam⟩
    simp only [numberOffsets, List.mem_cons, List.not_mem_nil, or_false] at member
    obtain rfl | rfl | rfl := member
    · exact (number (by decide)).mp battery
    · exact (number (by decide)).mp capacitor
    · exact (number (by decide)).mp current
  · rintro ⟨numbers, sequence, breakbeam⟩
    have single (start : Nat) (listed : start ∈ numberOffsets) (inside : start + 4 ≤ 15) :=
      (number inside).mpr (numbers start listed)
    exact ⟨single 0 (by decide) (by decide), single 4 (by decide) (by decide), single 8 (by decide) (by decide),
      (tripped_eq_iff _ _).mpr breakbeam, counter.mpr sequence⟩

theorem ofFrame_eq_ok_iff (frame : Bytes) (s : PowerStatus) :
    ofFrame frame = .ok s ↔
      ∃ payload, payload.length = Frame.statusPayloadLength ∧ frame = Frame.wrap payload ∧ ofPayload payload = s := by
  constructor
  · intro read
    cases unwrapped : Frame.unwrap Frame.statusPayloadLength frame with
    | error e => rw [ofFrame, unwrapped] at read; cases read
    | ok payload =>
      rw [ofFrame, unwrapped] at read
      obtain ⟨size, built⟩ := Frame.wrap_of_unwrap unwrapped
      exact ⟨payload, size, built, Except.ok.inj read⟩
  · rintro ⟨payload, size, rfl, rfl⟩
    rw [ofFrame, Frame.unwrap_wrap size (by decide)]
    rfl

theorem ofFrame_eq_error_iff (frame : Bytes) (e : FrameError) :
    ofFrame frame = .error e ↔ firstFailure (Frame.checks Frame.statusPayloadLength frame) = some e := by
  rw [← Frame.unwrap_eq_error_iff, ofFrame]
  cases Frame.unwrap Frame.statusPayloadLength frame with
  | error found => exact ⟨fun h => by cases h; rfl, fun h => by cases h; rfl⟩
  | ok payload => exact ⟨nofun, nofun⟩

end PowerStatus

/-- Encoding and decoding agree on every command, every status and every string of bytes. -/
structure FramesExact : Prop where
  command (frame : Bytes) (c : PulseCommand) : PulseCommand.ofFrame frame = .ok c ↔ frame = c.toFrame
  status (s : PowerStatus) : PowerStatus.ofFrame s.toFrame = .ok s
  accepted (frame : Bytes) :
    (∃ s, PowerStatus.ofFrame frame = .ok s) ↔
      ∃ payload : Bytes, payload.length = Frame.statusPayloadLength ∧
        frame = Frame.startByte :: UInt8.ofNat Frame.statusPayloadLength :: payload ++
          littleEndian 2 (Checksum.compute payload).toNat
  same (a b : Bytes) (s t : PowerStatus) :
    PowerStatus.ofFrame a = .ok s → PowerStatus.ofFrame b = .ok t →
      (s.Same t ↔ PowerStatus.Agree (Frame.payloadOf Frame.statusPayloadLength a)
        (Frame.payloadOf Frame.statusPayloadLength b))
  refusedCommand (frame : Bytes) (e : FrameError) :
    PulseCommand.ofFrame frame = .error e ↔ firstFailure (PulseCommand.checks frame) = some e
  refusedStatus (frame : Bytes) (e : FrameError) :
    PowerStatus.ofFrame frame = .error e ↔ firstFailure (Frame.checks Frame.statusPayloadLength frame) = some e
  inBounds (length : Nat) (frame : Bytes) : Frame.unwrapIndexed? length frame = some (Frame.unwrap length frame)
  payloadLength (length : Nat) (frame payload : Bytes) :
    Frame.unwrap length frame = .ok payload → payload.length = length

theorem PowerStatus.accepted_iff (frame : Bytes) :
    (∃ s, ofFrame frame = .ok s) ↔
      ∃ payload : Bytes, payload.length = Frame.statusPayloadLength ∧ frame = Frame.wrap payload := by
  constructor
  · rintro ⟨s, read⟩
    obtain ⟨payload, size, built, -⟩ := (ofFrame_eq_ok_iff frame s).mp read
    exact ⟨payload, size, built⟩
  · rintro ⟨payload, size, built⟩
    exact ⟨ofPayload payload, (ofFrame_eq_ok_iff frame _).mpr ⟨payload, size, built, rfl⟩⟩

theorem Frame.payloadOf_wrap {payload : Bytes} {length : Nat} (size : payload.length = length) :
    payloadOf length (wrap payload) = payload := by
  simp only [payloadOf, wrap, List.cons_append, List.drop_succ_cons, List.drop_zero]
  exact List.take_left' size

theorem frames_exact : FramesExact where
  command := PulseCommand.ofFrame_eq_ok_iff
  status := PowerStatus.ofFrame_toFrame
  accepted frame := by
    rw [PowerStatus.accepted_iff]
    refine exists_congr fun payload => and_congr_right fun size => ?_
    rw [Frame.wrap, size]
  same a b s t first second := by
    obtain ⟨p, sizeP, rfl, rfl⟩ := (PowerStatus.ofFrame_eq_ok_iff a s).mp first
    obtain ⟨q, sizeQ, rfl, rfl⟩ := (PowerStatus.ofFrame_eq_ok_iff b t).mp second
    rw [Frame.payloadOf_wrap sizeP, Frame.payloadOf_wrap sizeQ]
    exact PowerStatus.same_ofPayload_iff sizeP sizeQ
  refusedCommand := PulseCommand.ofFrame_eq_error_iff
  refusedStatus := PowerStatus.ofFrame_eq_error_iff
  inBounds := Frame.unwrapIndexed?_eq
  payloadLength _ _ _ unwrapped := (Frame.wrap_of_unwrap unwrapped).1

end Onboard
