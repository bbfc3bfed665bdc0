import Mathlib.Data.List.Nodup
import Onboard.Power.Checksum

/-! The register is linear: shifting and taking in bytes commute with exclusive or, so that what an error does to a
checksum depends on the error only. Shifting loses nothing and keeps the parity of the register. -/

namespace Onboard.Checksum

/-- The coefficient of `x ^ i`. -/
def bit (register : UInt16) (i : Nat) : Bool :=
  register.toNat.testBit i

theorem bit_zero (i : Nat) : bit 0 i = false :=
  Nat.zero_testBit i

theorem bit_xor (a b : UInt16) (i : Nat) : bit (a ^^^ b) i = (bit a i ^^ bit b i) := by
  rw [bit, UInt16.toNat_xor, Nat.testBit_xor]
  rfl

theorem ext_bit {a b : UInt16} (same : ∀ i < 16, bit a i = bit b i) : a = b := by
  apply UInt16.toNat_inj.mp
  refine Nat.eq_of_testBit_eq fun i => ?_
  by_cases low : i < 16
  · exact same i low
  · have high : 2 ^ 16 ≤ 2 ^ i := Nat.pow_le_pow_right (by decide) (by omega)
    rw [Nat.testBit_lt_two_pow (Nat.lt_of_lt_of_le a.toNat_lt high),
      Nat.testBit_lt_two_pow (Nat.lt_of_lt_of_le b.toNat_lt high)]

/-- The polynomial without its leading term. -/
def tail : UInt16 := 0x1021

theorem and_top_ne_zero (register : UInt16) : register &&& 0x8000 ≠ 0 ↔ bit register 15 = true := by
  have masked (i : Nat) : bit (register &&& 0x8000) i = (bit register i && decide (15 = i)) := by
    rw [bit, UInt16.toNat_and, Nat.testBit_and]
    exact congrArg _ (Nat.testBit_two_pow (n := 15))
  constructor
  · refine fun nonzero => eq_true_of_ne_false fun top => nonzero (ext_bit fun i _ => ?_)
    rw [masked, bit_zero]
    by_cases last : 15 = i
    · rw [← last, top, Bool.false_and]
    · rw [decide_eq_false last, Bool.and_false]
  · intro top zero
    have gone := masked 15
    rw [zero, top] at gone
    cases gone

theorem shift_eq (register : UInt16) : shift register = (register <<< 1) ^^^ if bit register 15 then tail else 0 := by
  rw [shift]
  by_cases top : bit register 15 = true
  · rw [if_pos ((and_top_ne_zero register).mpr top), if_pos top]
    rfl
  · rw [if_neg (mt (and_top_ne_zero register).mp top), if_neg top, UInt16.xor_zero]

theorem bit_shiftLeft (register : UInt16) {i : Nat} (inside : i < 16) :
    bit (register <<< 1) i = (decide (1 ≤ i) && bit register (i - 1)) := by
  rw [bit, UInt16.toNat_shiftLeft, Nat.testBit_mod_two_pow, decide_eq_true inside, Bool.true_and]
  exact Nat.testBit_shiftLeft _

theorem bit_shiftLeft_byte (register : UInt16) {i : Nat} (inside : i < 16) :
    bit (register <<< 8) i = (decide (8 ≤ i) && bit register (i - 8)) := by
  rw [bit, UInt16.toNat_shiftLeft, Nat.testBit_mod_two_pow, decide_eq_true inside, Bool.true_and]
  exact Nat.testBit_shiftLeft _

theorem bit_shift (register : UInt16) {i : Nat} (inside : i < 16) :
    bit (shift register) i = ((decide (1 ≤ i) && bit register (i - 1)) ^^ (bit register 15 && bit tail i)) := by
  rw [shift_eq, bit_xor, bit_shiftLeft register inside]
  cases bit register 15 with
  | true => rfl
  | false => simp [bit_zero]

theorem shift_xor (a b : UInt16) : shift (a ^^^ b) = shift a ^^^ shift b := by
  refine ext_bit fun i inside => ?_
  simp only [bit_xor, bit_shift _ inside]
  grind

theorem eq_zero_of_shift {register : UInt16} (gone : shift register = 0) : register = 0 := by
  have low {i : Nat} (inside : i < 16) := (bit_shift register inside).symm.trans (gone ▸ bit_zero i)
  have top : bit register 15 = false := by simpa [bit, tail] using low (show 0 < 16 by decide)
  refine ext_bit fun i inside => ?_
  by_cases last : i = 15
  · rw [last, top, bit_zero]
  · have next := low (show i + 1 < 16 by omega)
    simpa [top, bit_zero] using next

/-- Whether the number of ones among the low places is odd. -/
def oddOnes (register : UInt16) : (places : Nat) → Bool
  | 0 => false
  | i + 1 => bit register i ^^ oddOnes register i

/-- Whether the number of ones is odd, which is the register's value at `x = 1`. -/
def parity (register : UInt16) : Bool :=
  oddOnes register 16

theorem oddOnes_xor (a b : UInt16) (places : Nat) :
    oddOnes (a ^^^ b) places = (oddOnes a places ^^ oddOnes b places) := by
  induction places with
  | zero => rfl
  | succ i ih =>
    rw [oddOnes, oddOnes, oddOnes, ih, bit_xor, Bool.xor_assoc, Bool.xor_assoc, Bool.xor_left_comm (bit b i)]

theorem parity_xor (a b : UInt16) : parity (a ^^^ b) = (parity a ^^ parity b) :=
  oddOnes_xor a b 16

theorem oddOnes_shiftLeft (register : UInt16) {places : Nat} (inside : places < 16) :
    oddOnes (register <<< 1) (places + 1) = oddOnes register places := by
  induction places with
  | zero => simp [oddOnes, bit_shiftLeft register inside]
  | succ i ih =>
    rw [oddOnes, ih (Nat.lt_of_succ_lt inside), bit_shiftLeft register inside]
    simp [oddOnes]

/-- The polynomial has `x + 1` as a factor. -/
theorem parity_shift (register : UInt16) : parity (shift register) = parity register := by
  rw [shift_eq, parity_xor, parity, oddOnes_shiftLeft register (by decide), Bool.xor_comm]
  have taken : parity (if bit register 15 then tail else 0) = bit register 15 := by
    cases bit register 15 <;> rfl
  rw [taken]
  rfl

theorem shift_zero : shift 0 = 0 := rfl

theorem shift_injective {a b : UInt16} (same : shift a = shift b) : a = b := by
  refine UInt16.xor_eq_zero_iff.mp (eq_zero_of_shift ?_)
  rw [shift_xor, same, UInt16.xor_self]

section shiftTimes

variable (n : Nat)

theorem shiftTimes_zero : shiftTimes n 0 = 0 := by
  induction n with
  | zero => rfl
  | succ n ih => rw [shiftTimes, shift_zero, ih]

theorem shiftTimes_xor (a b : UInt16) : shiftTimes n (a ^^^ b) = shiftTimes n a ^^^ shiftTimes n b := by
  induction n generalizing a b with
  | zero => rfl
  | succ n ih => rw [shiftTimes, shift_xor, ih]; rfl

theorem shiftTimes_injective {a b : UInt16} (same : shiftTimes n a = shiftTimes n b) : a = b := by
  induction n generalizing a b with
  | zero => exact same
  | succ n ih => exact shift_injective (ih same)

theorem parity_shiftTimes (register : UInt16) : parity (shiftTimes n register) = parity register := by
  induction n generalizing register with
  | zero => rfl
  | succ n ih => rw [shiftTimes, ih, parity_shift]

theorem shiftTimes_add (m : Nat) (register : UInt16) :
    shiftTimes (m + n) register = shiftTimes n (shiftTimes m register) := by
  induction m generalizing register with
  | zero => rw [Nat.zero_add]; rfl
  | succ m ih => rw [Nat.succ_add, shiftTimes, ih]; rfl

end shiftTimes

theorem toUInt16_eq (byte : UInt8) : byte.toUInt16 = UInt16.ofNat byte.toNat := by
  have low := byte.toNat_lt
  apply UInt16.toNat_inj.mp
  rw [UInt8.toNat_toUInt16, UInt16.toNat_ofNat', Nat.mod_eq_of_lt (by omega)]

/-- A byte comes in eight places up, which is where eight shifts bring it. -/
theorem shiftTimes_byte (byte : UInt8) : shiftTimes 8 byte.toUInt16 = byte.toUInt16 <<< 8 := by
  have each : ∀ n : Fin 256, shiftTimes 8 (UInt16.ofNat n) = UInt16.ofNat n <<< 8 := by decide +kernel
  rw [toUInt16_eq]
  exact each ⟨byte.toNat, byte.toNat_lt⟩

theorem step_shiftTimes (register : UInt16) (byte : UInt8) :
    step (shiftTimes 16 register) byte = shiftTimes 16 (shiftTimes 8 register ^^^ byte.toUInt16) := by
  rw [step, ← shiftTimes_byte, shiftTimes_add 8 8, shiftTimes_add 8 8, ← shiftTimes_xor]

theorem step_xor (a b : UInt16) (x y : UInt8) : step (a ^^^ b) (x ^^^ y) = step a x ^^^ step b y := by
  rw [step, step, step, ← shiftTimes_xor, UInt8.toUInt16_xor, UInt16.shiftLeft_xor]
  exact congrArg (shiftTimes 8) (by ac_rfl)

/-- What differs between two checksums depends only on what differs between the bytes. -/
theorem run_xor (a b : UInt16) {x y : Bytes} (size : x.length = y.length) :
    run (a ^^^ b) (List.zipWith (· ^^^ ·) x y) = run a x ^^^ run b y := by
  induction x generalizing y a b with
  | nil =>
    cases List.eq_nil_of_length_eq_zero size.symm
    rfl
  | cons i x ih =>
    match y with
    | j :: y =>
      rw [List.zipWith_cons_cons, run, List.foldl_cons, step_xor]
      exact ih (step a i) (step b j) (Nat.succ.inj size)

/-- The bytes as a polynomial modulo the checksum's, by Horner's rule. -/
def residue (register : UInt16) (bytes : Bytes) : UInt16 :=
  bytes.foldl (fun register byte => shiftTimes 8 register ^^^ byte.toUInt16) register

theorem run_shiftTimes (register : UInt16) (bytes : Bytes) :
    run (shiftTimes 16 register) bytes = shiftTimes 16 (residue register bytes) := by
  induction bytes generalizing register with
  | nil => rfl
  | cons byte rest ih =>
    rw [run, List.foldl_cons, step_shiftTimes]
    exact ih _

/-- The checksum stands below the payload as its residue. -/
theorem residue_append (bytes : Bytes) (high low : UInt8) :
    residue 0 (bytes ++ [high, low]) = run 0 bytes ^^^ (high.toUInt16 <<< 8 ^^^ low.toUInt16) := by
  have shifted := run_shiftTimes 0 bytes
  rw [shiftTimes_zero] at shifted
  rw [residue, List.foldl_append, shifted, ← shiftTimes_byte, ← UInt16.xor_assoc, shiftTimes_add 8 8, ← shiftTimes_xor]
  rfl

/-- The places of the ones in a byte. -/
def ones (byte : UInt8) : List Nat :=
  (List.range 8).filter fun place => byte.toNat.testBit place

/-- The exponents of the bytes as a polynomial. -/
def exponents : Bytes → List Nat
  | [] => []
  | byte :: rest => (ones byte).map (8 * rest.length + ·) ++ exponents rest

/-- The power `x ^ k` modulo the polynomial. -/
def power (k : Nat) : UInt16 :=
  shiftTimes k 1

/-- The sum of powers with these exponents. -/
def sum (exponents : List Nat) : UInt16 :=
  (exponents.map power).foldr (· ^^^ ·) 0

theorem sum_append (a b : List Nat) : sum (a ++ b) = sum a ^^^ sum b := by
  induction a with
  | nil => exact UInt16.zero_xor.symm
  | cons k rest ih =>
    rw [List.cons_append, sum, List.map_cons, List.foldr_cons, ← sum, ih, ← UInt16.xor_assoc]
    rfl

theorem shiftTimes_sum (n : Nat) (exponents : List Nat) :
    shiftTimes n (sum exponents) = sum (exponents.map (n + ·)) := by
  induction exponents with
  | nil => exact shiftTimes_zero n
  | cons k rest ih =>
    rw [sum, List.map_cons, List.foldr_cons, ← sum, shiftTimes_xor, ih, power, ← shiftTimes_add, Nat.add_comm]
    rfl

theorem sum_ones (byte : UInt8) : sum (ones byte) = byte.toUInt16 := by
  have each : ∀ n : Fin 256, sum (ones (UInt8.ofNat n)) = UInt16.ofNat n := by decide +kernel
  rw [toUInt16_eq, ← each ⟨byte.toNat, byte.toNat_lt⟩, UInt8.ofNat_toNat]

theorem residue_eq (register : UInt16) (bytes : Bytes) :
    residue register bytes = shiftTimes (8 * bytes.length) register ^^^ sum (exponents bytes) := by
  induction bytes generalizing register with
  | nil => exact UInt16.xor_zero.symm
  | cons byte rest ih =>
    rw [residue, List.foldl_cons, ← residue, ih, exponents, sum_append, ← shiftTimes_sum, sum_ones, shiftTimes_xor,
      ← shiftTimes_add, UInt16.xor_assoc, List.length_cons, Nat.mul_succ, Nat.add_comm]

theorem residue_zero (bytes : Bytes) : residue 0 bytes = sum (exponents bytes) := by
  rw [residue_eq, shiftTimes_zero, UInt16.zero_xor]

theorem parity_sum (exponents : List Nat) : parity (sum exponents) = decide (exponents.length % 2 = 1) := by
  induction exponents with
  | nil => rfl
  | cons k rest ih =>
    rw [sum, List.map_cons, List.foldr_cons, ← sum, parity_xor, ih, power, parity_shiftTimes, List.length_cons]
    obtain even | odd := Nat.mod_two_eq_zero_or_one rest.length
    · rw [even, show (rest.length + 1) % 2 = 1 by omega]; rfl
    · rw [odd, show (rest.length + 1) % 2 = 0 by omega]; rfl

/-- Fewer than this many powers are all different; a frame has fewer bits. -/
def period : Nat := 160

theorem power_ne_one {k : Nat} (positive : 0 < k) (small : k < period) : power k ≠ 1 := by
  have each : ∀ i : Fin period, 0 < i.val → power i ≠ 1 := by decide +kernel
  exact each ⟨k, small⟩ positive

theorem power_ne {j k : Nat} (less : j < k) (small : k < period) : power j ≠ power k := by
  intro same
  have apart : power (k - j) = 1 := by
    apply shiftTimes_injective j
    rw [power, ← shiftTimes_add, Nat.sub_add_cancel (Nat.le_of_lt less)]
    exact same.symm
  exact power_ne_one (by omega) (by omega) apart

theorem ones_lt {byte : UInt8} {place : Nat} (one : place ∈ ones byte) : place < 8 :=
  List.mem_range.mp (List.mem_filter.mp one).1

theorem exponents_lt {bytes : Bytes} {k : Nat} (term : k ∈ exponents bytes) : k < 8 * bytes.length := by
  induction bytes with
  | nil => cases term
  | cons byte rest ih =>
    rw [List.length_cons]
    obtain high | low := List.mem_append.mp term
    · obtain ⟨place, one, rfl⟩ := List.mem_map.mp high
      have := ones_lt one
      omega
    · have := ih low
      omega

theorem nodup_exponents (bytes : Bytes) : (exponents bytes).Nodup := by
  induction bytes with
  | nil => exact List.nodup_nil
  | cons byte rest ih =>
    have within : (ones byte).Nodup := List.nodup_range.filter _
    refine List.nodup_append.mpr ⟨within.map (fun _ _ => Nat.add_left_cancel), ih, fun j high k low => ?_⟩
    obtain ⟨place, -, rfl⟩ := List.mem_map.mp high
    have := exponents_lt low
    omega

/-- An odd number of wrong bits leaves a residue. -/
theorem residue_of_odd {bytes : Bytes} (odd : (exponents bytes).length % 2 = 1) : residue 0 bytes ≠ 0 := by
  intro divides
  have parities := parity_sum (exponents bytes)
  rw [← residue_zero, divides, decide_eq_true odd] at parities
  cases parities

/-- So do two wrong bits within the period. -/
theorem residue_of_two {bytes : Bytes} (two : (exponents bytes).length = 2) (short : 8 * bytes.length ≤ period) :
    residue 0 bytes ≠ 0 := by
  obtain ⟨j, k, both⟩ := List.length_eq_two.mp two
  have distinct := nodup_exponents bytes
  have low {i : Nat} (term : i ∈ exponents bytes) : i < period := Nat.lt_of_lt_of_le (exponents_lt term) short
  rw [both] at distinct low
  have apart : power j ≠ power k := by
    have different : j ≠ k := List.ne_of_not_mem_cons (List.nodup_cons.mp distinct).1
    obtain less | more := Nat.lt_or_gt_of_ne different
    · exact power_ne less (low (by simp))
    · exact (power_ne more (low (by simp))).symm
  rw [residue_zero, both]
  exact fun same => apart (UInt16.xor_eq_zero_iff.mp (by simpa [sum] using same))

theorem run_injective {a b : UInt16} {bytes : Bytes} (same : run a bytes = run b bytes) : a = b := by
  induction bytes generalizing a b with
  | nil => exact same
  | cons byte rest ih => exact UInt16.xor_left_inj _ |>.mp (shiftTimes_injective 8 (ih same))

theorem run_pair (register : UInt16) (high low : UInt8) :
    run register [high, low] = shiftTimes 16 (register ^^^ (high.toUInt16 <<< 8 ^^^ low.toUInt16)) := by
  rw [run, List.foldl_cons, List.foldl_cons, List.foldl_nil, step, step, ← shiftTimes_byte low, ← shiftTimes_xor,
    ← UInt16.xor_assoc]
  rfl

theorem shiftLeft_byte_injective {high low : UInt8} (same : high.toUInt16 <<< 8 = low.toUInt16) :
    high = 0 ∧ low = 0 := by
  have highByte := high.toNat_lt
  have lowByte := low.toNat_lt
  have values : high.toNat * 256 = low.toNat := by
    have shifted : (high.toUInt16 <<< 8).toNat = high.toNat * 256 := by
      rw [UInt16.toNat_shiftLeft, UInt8.toNat_toUInt16]
      change (high.toNat <<< 8) % 2 ^ 16 = _
      rw [Nat.shiftLeft_eq]
      omega
    rw [← shifted, same, UInt8.toNat_toUInt16]
  exact ⟨UInt8.toNat_inj.mp (show high.toNat = 0 by omega), UInt8.toNat_inj.mp (show low.toNat = 0 by omega)⟩

/-- Two bytes in a row can be told from their checksum. -/
theorem run_pair_injective {register : UInt16} {a b c d : UInt8} (same : run register [a, b] = run register [c, d]) :
    a = c ∧ b = d := by
  rw [run_pair, run_pair] at same
  have words := UInt16.xor_eq_zero_iff.mpr ((UInt16.xor_right_inj _).mp (shiftTimes_injective 16 same))
  have differences : (a ^^^ c).toUInt16 <<< 8 = (b ^^^ d).toUInt16 := by
    rw [UInt8.toUInt16_xor, UInt8.toUInt16_xor, UInt16.shiftLeft_xor, ← UInt16.xor_eq_zero_iff, ← words]
    ac_rfl
  obtain ⟨high, low⟩ := shiftLeft_byte_injective differences
  exact ⟨UInt8.xor_eq_zero_iff.mp high, UInt8.xor_eq_zero_iff.mp low⟩

end Onboard.Checksum
