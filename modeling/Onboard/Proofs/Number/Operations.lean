import Mathlib
import Onboard.Proofs.Number.Arithmetic
import Onboard.Proofs.Number.Nearest

/-! Products and quotients of doubles are rounded correctly. Two bits after a mantissa tell where the exact number lies
between it and the next one; a shift keeps what they tell, and they are enough to find the nearest mantissa. -/

namespace Onboard.Double
open Float.Model (Format UnpackedFloat totalExponent)
open Float.Model.UnpackedFloat
open BinaryFormat (double)

/-- The exact number is the mantissa, below the middle to the next one, in the middle or above it. -/
def Tells (em : ExtendedMantissa) (t : ℚ) : Prop :=
  match em.roundBit, em.stickyBit with
  | false, false => t = em.mantissa
  | false, true => em.mantissa < t ∧ t < em.mantissa + 1 / 2
  | true, false => t = em.mantissa + 1 / 2
  | true, true => em.mantissa + 1 / 2 < t ∧ t < em.mantissa + 1

section Tells
variable {em : ExtendedMantissa} {t : ℚ} (tells : Tells em t)
include tells

theorem Tells.between : em.mantissa ≤ t ∧ t < em.mantissa + 1 := by
  obtain ⟨m, round, sticky⟩ := em
  cases round <;> cases sticky <;> simp only [Tells] at tells ⊢ <;> constructor <;> linarith

theorem Tells.shiftRightOne : Tells em.shiftRightOne (t / 2) := by
  obtain ⟨m, round, sticky⟩ := em
  have halves : (m : ℚ) = 2 * (m / 2 : ℕ) + (m % 2 : ℕ) := by exact_mod_cast (Nat.div_add_mod m 2).symm
  unfold ExtendedMantissa.shiftRightOne
  dsimp only
  generalize m / 2 = half at *
  rcases Nat.mod_two_eq_zero_or_one m with even | odd
  · rw [even, Nat.cast_zero, add_zero] at halves
    have bit : (m % 2 != 0) = false := by rw [even]; rfl
    rw [bit]
    cases round <;> cases sticky <;> simp only [Tells, halves, Bool.or_false, Bool.or_true] at tells ⊢ <;>
      first | linarith | constructor <;> linarith
  · rw [odd, Nat.cast_one] at halves
    have bit : (m % 2 != 0) = true := by rw [odd]; rfl
    rw [bit]
    cases round <;> cases sticky <;> simp only [Tells, halves, Bool.or_false, Bool.or_true] at tells ⊢ <;>
      first | linarith | constructor <;> linarith

theorem Tells.shiftRight (k : ℕ) : Tells (em >>> k) (t / 2 ^ k) := by
  induction k with
  | zero => rwa [pow_zero, div_one]
  | succ k ih =>
    rw [pow_succ, ← div_div]
    exact ih.shiftRightOne

theorem Tells.roundedMantissa_eq {num den : ℕ} (positive : 0 < den) (same : t = num / den) :
    em.roundedMantissa = roundHalfEven num den := by
  subst same
  symm
  obtain ⟨m, round, sticky⟩ := em
  cases round <;> cases sticky <;> simp only [Tells] at tells
  · change roundHalfEven num den = m
    refine roundHalfEven_eq_of_near positive ?_ ?_ fun _ => ⟨?_, ?_⟩ <;> linarith
  · change roundHalfEven num den = m
    refine roundHalfEven_eq_of_near positive ?_ ?_ fun _ => ⟨?_, ?_⟩ <;> linarith
  · -- In the middle the even neighbour is taken.
    change roundHalfEven num den = m + m % 2
    rcases Nat.mod_two_eq_zero_or_one m with even | odd
    · rw [even, Nat.add_zero]
      refine roundHalfEven_eq_of_near positive ?_ ?_ (fun odd => by omega) <;> linarith
    · rw [odd]
      refine roundHalfEven_eq_of_near positive ?_ ?_ (fun odd => by omega) <;> push_cast <;> linarith
  · change roundHalfEven num den = m + 1
    refine roundHalfEven_eq_of_near positive ?_ ?_ fun _ => ⟨?_, ?_⟩ <;> push_cast <;> linarith

end Tells

theorem tells_exact (m : ℕ) : Tells (.ofMantissaAndAccuracy m .exact) m :=
  rfl

theorem tells_fraction (m : ℕ) {n : ℕ} (positive : 0 < n) :
    Tells (.ofMantissaAndAccuracy (m / n) (accuracyOfFraction (m % n) n)) (m / n) := by
  have divisor : (0 : ℚ) < n := Nat.cast_pos.mpr positive
  have whole : (m / n : ℚ) = (m / n : ℕ) + (m % n : ℕ) / n := by
    rw [div_eq_iff divisor.ne', add_mul, div_mul_cancel₀ _ divisor.ne', mul_comm]
    exact_mod_cast (Nat.div_add_mod m n).symm
  have rest := Nat.mod_lt m positive
  rw [whole]
  generalize m % n = r at *
  generalize m / n = q at *
  have less : (r / n : ℚ) < 1 := by
    rw [div_lt_one divisor]
    exact_mod_cast rest
  unfold accuracyOfFraction
  split
  · next zero =>
    simp [Tells, ExtendedMantissa.ofMantissaAndAccuracy, zero]
  · next some =>
    have above : (0 : ℚ) < r / n := div_pos (Nat.cast_pos.mpr (Nat.pos_of_ne_zero some)) divisor
    rcases order : compare (2 * r) n with _ | _ | _
    · have half : (r / n : ℚ) < 1 / 2 := by
        rw [div_lt_div_iff₀ divisor two_pos, one_mul]
        exact_mod_cast (Nat.mul_comm 2 r) ▸ Nat.compare_eq_lt.mp order
      exact ⟨lt_add_of_pos_right (q : ℚ) above, add_lt_add_right half (q : ℚ)⟩
    · have half : (r / n : ℚ) = 1 / 2 := by
        rw [div_eq_div_iff divisor.ne' two_ne_zero, one_mul]
        exact_mod_cast (Nat.mul_comm 2 r) ▸ Nat.compare_eq_eq.mp order
      exact congrArg ((q : ℚ) + ·) half
    · have half : (1 / 2 : ℚ) < r / n := by
        rw [div_lt_div_iff₀ two_pos divisor, one_mul]
        exact_mod_cast (Nat.mul_comm 2 r) ▸ Nat.compare_eq_gt.mp order
      exact ⟨add_lt_add_right half (q : ℚ), add_lt_add_right less (q : ℚ)⟩

theorem magnitude_zero (sign : Sign) : magnitude ⟨.pack (.zero sign)⟩ = 0 := by
  rw [magnitude_pack]
  simp only [UnpackedFloat.pack, packedZero, unpackExponent_packComponents, unpackMantissa_packComponents]
  rfl

theorem magnitude_infinite (sign : Sign) {coefficient : ℕ} {exponent : ℤ} (positive : 0 < coefficient)
    (high : 972 ≤ exponent) :
    magnitude ⟨.pack (.finite sign coefficient exponent positive)⟩ = double.infinity := by
  rw [magnitude_pack]
  unfold UnpackedFloat.pack
  dsimp only
  rw [if_pos (by change 2 ^ 11 ≤ (exponent + 1023 + 52).toNat + 1; omega)]
  simp only [packedInfinity, unpackExponent_packComponents, unpackMantissa_packComponents]
  rfl

/-- A rounded mantissa keeps its exponent, or it has carried and moves to the next one. -/
theorem rounded_cases (sign : Sign) {m c : ℕ} {e d : ℤ} {accuracy : Accuracy}
    (mantissa : (shiftToTargetExponent Format.binary64 m e accuracy).1.roundedMantissa = c)
    (exponent : (shiftToTargetExponent Format.binary64 m e accuracy).2 = d) (carried : c ≤ 2 ^ 53) (least : -1074 ≤ d) :
    (c = 0 ∧ roundWithAccuracy Format.binary64 sign m e accuracy = .zero sign) ∨
      (c < 2 ^ 53 ∧ ∃ some, roundWithAccuracy Format.binary64 sign m e accuracy = .finite sign c d some) ∨
      (c = 2 ^ 53 ∧ ∃ some,
        roundWithAccuracy Format.binary64 sign m e accuracy = .finite sign (2 ^ 52) (d + 1) some) := by
  unfold roundWithAccuracy
  dsimp only
  rw [mantissa, exponent]
  obtain ⟨shift, shifted, halved, moved⟩ := shiftToTargetExponent_eq c d .exact
  have target := targetExponent_spec (totalExponent c d)
  generalize shiftToTargetExponent Format.binary64 c d .exact = last at *
  obtain ⟨⟨final, round, sticky⟩, f⟩ := last
  dsimp only at *
  unfold totalExponent at *
  rcases Nat.lt_or_eq_of_le carried with small | rfl
  · have log := log2_lt_succ small
    obtain rfl : shift = 0 := by omega
    obtain rfl : final = c := halved.trans (Nat.div_one c)
    obtain rfl : f = d := moved.trans (add_zero d)
    split
    · next none => exact .inl ⟨none, rfl⟩
    · next some => exact .inr (.inl ⟨small, Nat.pos_of_ne_zero some, rfl⟩)
  · rw [Nat.log2_two_pow] at *
    obtain rfl : shift = 1 := by omega
    obtain rfl : final = 2 ^ 52 := halved
    obtain rfl : f = d + 1 := moved
    split
    · next none => exact absurd none (by decide)
    · exact .inr (.inr ⟨rfl, by decide, rfl⟩)

section Rounded
variable (sign : Sign) {m c : ℕ} {e d : ℤ} {accuracy : Accuracy}
  (mantissa : (shiftToTargetExponent Format.binary64 m e accuracy).1.roundedMantissa = c)
  (exponent : (shiftToTargetExponent Format.binary64 m e accuracy).2 = d) (carried : c ≤ 2 ^ 53) (least : -1074 ≤ d)
include mantissa exponent carried least

/-- At the next exponent the magnitude is the same. -/
theorem magnitude_of_rounded (low : d ≤ 970 ∨ d ≤ 971 ∧ c < 2 ^ 53) (normal : d = -1074 ∨ 2 ^ 52 ≤ c) :
    (magnitude ⟨.pack (roundWithAccuracy Format.binary64 sign m e accuracy)⟩ : ℤ) = (d + 1074) * 2 ^ 52 + c := by
  obtain ⟨none, rounded⟩ | ⟨small, some, rounded⟩ | ⟨full, some, rounded⟩ :=
    rounded_cases sign mantissa exponent carried least <;> rw [rounded]
  · rw [magnitude_zero]
    omega
  · rw [magnitude_finite] <;> omega
  · rw [magnitude_finite] <;> omega

/-- A rounded mantissa beyond the greatest exponent is no finite number any more. -/
theorem magnitude_of_rounded_infinite (high : 972 ≤ d ∧ 0 < c ∨ d = 971 ∧ c = 2 ^ 53) :
    magnitude ⟨.pack (roundWithAccuracy Format.binary64 sign m e accuracy)⟩ = double.infinity := by
  obtain ⟨none, -⟩ | ⟨small, some, rounded⟩ | ⟨full, some, rounded⟩ :=
    rounded_cases sign mantissa exponent carried least
  · omega
  · rw [rounded, magnitude_infinite _ _ (by omega)]
  · rw [rounded, magnitude_infinite _ _ (by omega)]

end Rounded

/-- The exponent to which a mantissa is shifted is the one that its number is rounded at. -/
theorem exponentFor_of_tells {m num den shift : ℕ} {e : ℤ} {accuracy : Accuracy} {t : ℚ} (some : 0 < num)
    (positive : 0 < den) (tells : Tells (.ofMantissaAndAccuracy m accuracy) t) (value : (num / den : ℚ) = t * 2 ^ e)
    (long : 52 ≤ m.log2 ∨ e ≤ -1074)
    (shifted : shift = (Format.binary64.targetExponent (totalExponent m e) - e).toNat) :
    double.exponentFor num den = e + shift := by
  have target := targetExponent_spec (totalExponent m e)
  have unit := two_zpow_pos e
  obtain ⟨low, high⟩ := tells.between
  rw [mantissa_ofMantissaAndAccuracy] at low high
  unfold totalExponent at *
  refine BinaryFormat.exponentFor_eq some positive ?_ ?_ ?_
  · rw [BinaryFormat.minExponent_double]
    omega
  · have top : (m + 1 : ℚ) ≤ 2 ^ (m.log2 + 1 : ℤ) := by
      exact_mod_cast Nat.lt_log2_self (n := m)
    rw [value, BinaryFormat.precision_double]
    calc
      t * 2 ^ e < 2 ^ (m.log2 + 1 : ℤ) * 2 ^ e := mul_lt_mul_of_pos_right (high.trans_le top) unit
      _ = 2 ^ (m.log2 + 1 + e : ℤ) := (two_zpow_add ..).symm
      _ ≤ _ := two_zpow_le (by omega)
  · rw [value, BinaryFormat.precision_double, BinaryFormat.minExponent_double]
    rcases Nat.eq_zero_or_pos m with rfl | full
    · rw [Nat.log2_zero] at *
      exact .inl (by omega)
    · by_cases bottom : Format.binary64.targetExponent (m.log2 + 1 + e) = -1074
      · exact .inl (by omega)
      · refine .inr ?_
        calc
          (2 : ℚ) ^ ((53 : ℕ) + (e + shift) - 1 : ℤ) = 2 ^ (m.log2 : ℤ) * 2 ^ e := by
            rw [← two_zpow_add]
            congr 1
            omega
          _ ≤ t * 2 ^ e := mul_le_mul_of_nonneg_right ((two_pow_log2_le full).trans low) unit.le

/-- A number of which a mantissa tells enough is rounded correctly, also where it is too large to be finite. -/
theorem magnitude_round (sign : Sign) {m num den : ℕ} {e : ℤ} {accuracy : Accuracy} {t : ℚ} (some : 0 < num)
    (positive : 0 < den) (tells : Tells (.ofMantissaAndAccuracy m accuracy) t) (value : (num / den : ℚ) = t * 2 ^ e)
    (long : 52 ≤ m.log2 ∨ e ≤ -1074) :
    magnitude ⟨.pack (roundWithAccuracy Format.binary64 sign m e accuracy)⟩ = double.roundRatio num den := by
  obtain ⟨shift, shifted, -, moved⟩ := shiftToTargetExponent_eq m e accuracy
  have exponent := exponentFor_of_tells some positive tells value long shifted
  have rounded : (shiftToTargetExponent Format.binary64 m e accuracy).1.roundedMantissa =
      double.coefficientFor num den := by
    have shiftedTells : Tells (shiftToTargetExponent Format.binary64 m e accuracy).1 (t / 2 ^ shift) := by
      rw [shifted]
      exact tells.shiftRight _
    refine shiftedTells.roundedMantissa_eq (unscale_pos positive ..) ?_
    rw [unscale_eq, value, exponent, two_zpow_add, zpow_natCast, mul_comm t, mul_div_mul_left _ _ (two_zpow_pos e).ne']
  obtain ⟨least, -, -⟩ := double.exponentFor_spec some positive
  have carried := double.coefficientFor_le some positive
  have normal : double.exponentFor num den = -1074 ∨ 2 ^ 52 ≤ double.coefficientFor num den := by
    rcases least.lt_or_eq with above | bottom
    · exact .inr (double.le_coefficientFor some positive above (by decide))
    · exact .inl bottom.symm
  obtain ⟨k, level⟩ := Int.exists_add_of_le least
  rw [BinaryFormat.precision_double] at carried
  rw [BinaryFormat.minExponent_double] at least level
  rw [double.roundRatio_eq some]
  symm
  by_cases low : double.exponentFor num den ≤ 970 ∨
      double.exponentFor num den ≤ 971 ∧ double.coefficientFor num den < 2 ^ 53
  · have same := magnitude_of_rounded sign rounded (moved.trans exponent.symm) carried least low normal
    refine BinaryFormat.encode_eq ?_ level ?_
    · rw [BinaryFormat.infinity_double]
      omega
    · rw [BinaryFormat.precision_double]
      omega
  · rw [magnitude_of_rounded_infinite sign rounded (moved.trans exponent.symm) carried least (by omega)]
    refine BinaryFormat.encode_eq_infinity level ?_
    rw [BinaryFormat.precision_double, BinaryFormat.infinity_double]
    omega

theorem isNegative_round (sign : Sign) (m : ℕ) (e : ℤ) (accuracy : Accuracy) :
    isNegative ⟨.pack (roundWithAccuracy Format.binary64 sign m e accuracy)⟩ = (sign == .negative) := by
  have packed : ∃ exponent fraction, UnpackedFloat.pack Format.binary64
      (roundWithAccuracy Format.binary64 sign m e accuracy) =
        packComponents Format.binary64 sign exponent fraction := by
    unfold roundWithAccuracy
    dsimp only
    split
    · exact ⟨_, _, rfl⟩
    · unfold UnpackedFloat.pack
      dsimp only
      split_ifs <;> exact ⟨_, _, rfl⟩
  obtain ⟨exponent, fraction, packed⟩ := packed
  exact isNegative_packed packed

theorem unpack_of_nonzero {x : Float} (finite : x.isFinite = true) (nonzero : (scaled x).value ≠ 0) :
    ∃ positive, x.toModel.unpack = .finite (signOf x) (scaled x).coefficient (scaled x).exponent positive := by
  obtain ⟨zero, -⟩ | unpacked := unpack_scaled (isFinite_iff.mp finite)
  · rw [Scaled.value, zero, Nat.cast_zero, zero_mul] at nonzero
    exact absurd rfl nonzero
  · exact unpacked

theorem isNegative_signs (x y : Float) : (signOf x * signOf y == .negative) = (isNegative x != isNegative y) := by
  unfold signOf
  cases isNegative x <;> cases isNegative y <;> rfl

theorem log2_add_le {m n : ℕ} (someM : 0 < m) (someN : 0 < n) : m.log2 + n.log2 ≤ (m * n).log2 := by
  rw [Nat.le_log2 (Nat.mul_pos someM someN).ne', Nat.pow_add]
  exact Nat.mul_le_mul (Nat.log2_self_le someM.ne') (Nat.log2_self_le someN.ne')

/-- The dividend is shifted until its quotient has all bits that are rounded to. -/
theorem divCore_eq {m n : ℕ} (d e : ℤ) (someM : 0 < m) (someN : 0 < n) : ∃ shift : ℕ,
    divCore Format.binary64 m d n e =
        (m * 2 ^ shift / n, d - e - shift, accuracyOfFraction (m * 2 ^ shift % n) n) ∧
      (52 ≤ (m * 2 ^ shift / n).log2 ∨ d - e - shift ≤ -1074) := by
  have target := targetExponent_spec (totalExponent m d - totalExponent n e)
  generalize top : Min.min (d - e) (Format.binary64.targetExponent (totalExponent m d - totalExponent n e)) = least
  obtain ⟨shift, range⟩ := Int.eq_ofNat_of_zero_le (show 0 ≤ d - e - least by omega)
  obtain rfl : least = d - e - shift := by omega
  refine ⟨shift, ?_, ?_⟩
  · unfold divCore
    dsimp only
    rw [top, Nat.shiftLeft_eq, range, Int.toNat_natCast]
  · by_cases bottom : d - e - shift ≤ -1074
    · exact .inr bottom
    · refine .inl ?_
      unfold totalExponent at *
      have bits : 52 + (n.log2 + 1) ≤ m.log2 + shift := by omega
      have full : 2 ^ 52 ≤ m * 2 ^ shift / n := by
        rw [Nat.le_div_iff_mul_le someN]
        calc
          2 ^ 52 * n ≤ 2 ^ 52 * 2 ^ (n.log2 + 1) := Nat.mul_le_mul_left _ Nat.lt_log2_self.le
          _ = 2 ^ (52 + (n.log2 + 1)) := (Nat.pow_add ..).symm
          _ ≤ 2 ^ (m.log2 + shift) := Nat.pow_le_pow_right two_pos bits
          _ = 2 ^ m.log2 * 2 ^ shift := Nat.pow_add ..
          _ ≤ m * 2 ^ shift := Nat.mul_le_mul_right _ (Nat.log2_self_le someM.ne')
      exact (Nat.le_log2 ((Nat.two_pow_pos 52).trans_le full).ne').mpr full

section Operations
variable {x y : Float} {num den : ℕ} (finiteX : x.isFinite = true) (finiteY : y.isFinite = true) (some : 0 < num)
  (positive : 0 < den)
include finiteX finiteY some positive

/-- A product is the double nearest the exact one. -/
theorem mul_nearest (value : (num / den : ℚ) = (scaled x).value * (scaled y).value) :
    magnitude (x * y) = double.roundRatio num den ∧ isNegative (x * y) = (isNegative x != isNegative y) := by
  have nonzero : (num / den : ℚ) ≠ 0 := (div_pos (Nat.cast_pos.mpr some) (Nat.cast_pos.mpr positive)).ne'
  rw [value] at nonzero
  obtain ⟨someX, unpackX⟩ := unpack_of_nonzero finiteX (left_ne_zero_of_mul nonzero)
  obtain ⟨someY, unpackY⟩ := unpack_of_nonzero finiteY (right_ne_zero_of_mul nonzero)
  have exact : (num / den : ℚ) = ((scaled x).coefficient * (scaled y).coefficient : ℕ) *
      2 ^ ((scaled x).exponent + (scaled y).exponent) := by
    rw [value, Scaled.value, Scaled.value, two_zpow_add, Nat.cast_mul]
    ring
  have product : (x * y) = ⟨.pack (roundWithAccuracy Format.binary64 (signOf x * signOf y)
      ((scaled x).coefficient * (scaled y).coefficient) ((scaled x).exponent + (scaled y).exponent) .exact)⟩ := by
    change (⟨.pack (mul Format.binary64 x.toModel.unpack y.toModel.unpack)⟩ : Float) = _
    rw [unpackX, unpackY]
    rfl
  obtain ⟨-, -, -, normalX⟩ := scaled_spec (isFinite_iff.mp finiteX)
  obtain ⟨-, -, -, normalY⟩ := scaled_spec (isFinite_iff.mp finiteY)
  have long : 52 ≤ ((scaled x).coefficient * (scaled y).coefficient).log2 ∨
      (scaled x).exponent + (scaled y).exponent ≤ -1074 := by
    have log := log2_add_le someX someY
    rcases normalX with leastX | fullX
    · rcases normalY with leastY | fullY
      · exact .inr (by omega)
      · have := (Nat.le_log2 someY.ne').mpr fullY
        exact .inl (by omega)
    · have := (Nat.le_log2 someX.ne').mpr fullX
      exact .inl (by omega)
  rw [product, isNegative_round, isNegative_signs]
  exact ⟨magnitude_round _ some positive (tells_exact _) exact long, rfl⟩

/-- A quotient is the double nearest the exact one. -/
theorem div_nearest (value : (num / den : ℚ) = (scaled x).value / (scaled y).value) :
    magnitude (x / y) = double.roundRatio num den ∧ isNegative (x / y) = (isNegative x != isNegative y) := by
  have nonzero : (num / den : ℚ) ≠ 0 := (div_pos (Nat.cast_pos.mpr some) (Nat.cast_pos.mpr positive)).ne'
  rw [value] at nonzero
  obtain ⟨nonzeroX, nonzeroY⟩ := div_ne_zero_iff.mp nonzero
  obtain ⟨someX, unpackX⟩ := unpack_of_nonzero finiteX nonzeroX
  obtain ⟨someY, unpackY⟩ := unpack_of_nonzero finiteY nonzeroY
  obtain ⟨shift, core, long⟩ := divCore_eq (scaled x).exponent (scaled y).exponent someX someY
  have quotient : (x / y) = ⟨.pack (roundWithAccuracy Format.binary64 (signOf x * signOf y)
      ((scaled x).coefficient * 2 ^ shift / (scaled y).coefficient) ((scaled x).exponent - (scaled y).exponent - shift)
      (accuracyOfFraction ((scaled x).coefficient * 2 ^ shift % (scaled y).coefficient) (scaled y).coefficient))⟩ := by
    change (⟨.pack (div Format.binary64 x.toModel.unpack y.toModel.unpack)⟩ : Float) = _
    rw [unpackX, unpackY]
    change (⟨.pack (roundWithAccuracy Format.binary64 _ (divCore Format.binary64 _ _ _ _).1
      (divCore Format.binary64 _ _ _ _).2.1 (divCore Format.binary64 _ _ _ _).2.2)⟩ : Float) = _
    rw [core]
    rfl
  have exact : (num / den : ℚ) = ((scaled x).coefficient * 2 ^ shift : ℕ) / (scaled y).coefficient *
      2 ^ ((scaled x).exponent - (scaled y).exponent - shift) := by
    rw [value, Scaled.value, Scaled.value, zpow_sub₀ two_ne_zero, zpow_sub₀ two_ne_zero, zpow_natCast]
    have unitX := (two_zpow_pos (scaled x).exponent).ne'
    have unitY := (two_zpow_pos (scaled y).exponent).ne'
    push_cast
    field_simp
  rw [quotient, isNegative_round, isNegative_signs]
  exact ⟨magnitude_round _ some positive (tells_fraction _ someY) exact long, rfl⟩

end Operations

/-- A positive double that a number was rounded to, with all its bits. -/
structure Rounds (z : Float) (t : ℚ) : Prop where
  finite : z.isFinite = true
  isNegative : isNegative z = false
  near : 2 ^ 53 * |(scaled z).value - t| ≤ t
  exact {c : ℕ} {e : ℤ} : c < 2 ^ 53 → -1074 ≤ e → t = c * 2 ^ e → (scaled z).value = t

section Rounds
variable {x y z : Float} {num den : ℕ} {t : ℚ}

theorem rounds_of_nearest (positive : 0 < den) (nearest : magnitude z = double.roundRatio num den)
    (sign : isNegative z = false) (value : (num / den : ℚ) = t) (low : (2 : ℚ) ^ (-1000 : ℤ) ≤ t)
    (high : t < BinaryFormat.overflow) : Rounds z t := by
  subst value
  have finite := BinaryFormat.roundRatio_lt_infinity positive high
  have some : 0 < num := pos_of_two_zpow_le (low.trans_eq (div_eq_mul_inv ..))
  refine ⟨?_, sign, ?_, fun small least exact => ?_⟩
  · rw [isFinite_iff, level, nearest]
    exact (Nat.div_lt_iff_lt_mul (by decide)).mpr finite
  · rw [scaled, nearest]
    exact BinaryFormat.abs_value_sub_le (by decide) some positive finite ((two_zpow_le (by decide)).trans low)
  · rw [scaled, nearest]
    exact BinaryFormat.value_of_exact (by decide) some positive finite small least exact

theorem exists_fraction (positive : 0 < t) : ∃ num den : ℕ, 0 < num ∧ 0 < den ∧ (num / den : ℚ) = t := by
  have some := Rat.num_pos.mpr positive
  refine ⟨t.num.toNat, t.den, by omega, t.den_pos, ?_⟩
  have numerator : ((t.num.toNat : ℤ) : ℚ) = t.num := congrArg _ (Int.toNat_of_nonneg some.le)
  rw [← Int.cast_natCast, numerator, Rat.num_div_den]

section Operations
variable (finiteX : x.isFinite = true) (finiteY : y.isFinite = true) (signX : isNegative x = false)
  (signY : isNegative y = false)
include finiteX finiteY signX signY

theorem rounds_mul (low : (2 : ℚ) ^ (-1000 : ℤ) ≤ (scaled x).value * (scaled y).value)
    (high : (scaled x).value * (scaled y).value < BinaryFormat.overflow) :
    Rounds (x * y) ((scaled x).value * (scaled y).value) := by
  obtain ⟨num, den, some, positive, value⟩ := exists_fraction ((two_zpow_pos _).trans_le low)
  obtain ⟨nearest, sign⟩ := mul_nearest finiteX finiteY some positive value
  rw [signX, signY] at sign
  exact rounds_of_nearest positive nearest sign value low high

theorem rounds_div (low : (2 : ℚ) ^ (-1000 : ℤ) ≤ (scaled x).value / (scaled y).value)
    (high : (scaled x).value / (scaled y).value < BinaryFormat.overflow) :
    Rounds (x / y) ((scaled x).value / (scaled y).value) := by
  obtain ⟨num, den, some, positive, value⟩ := exists_fraction ((two_zpow_pos _).trans_le low)
  obtain ⟨nearest, sign⟩ := div_nearest finiteX finiteY some positive value
  rw [signX, signY] at sign
  exact rounds_of_nearest positive nearest sign value low high

end Operations
end Rounds

theorem Unpacks.neg {sign : Sign} {exponent fraction : ℕ} {u : UnpackedFloat}
    (unpacked : Unpacks sign exponent fraction u) : Unpacks (-sign) exponent fraction u.neg := by
  cases unpacked with
  | infinity top none => exact .infinity top none
  | notANumber top some => exact .notANumber top some
  | zero bottom none => exact .zero bottom none
  | subnormal positive bottom => exact .subnormal positive bottom
  | normal positive implicit above below => exact .normal positive implicit above below

theorem neg_parts {x : Float} (finite : x.isFinite = true) :
    magnitude (-x) = magnitude x ∧ isNegative (-x) = !isNegative x := by
  rw [isFinite_iff, level] at finite
  have unpacked := (unpacks x).neg
  constructor
  · refine (unpacked.magnitude_eq (Nat.mod_lt _ (by decide)) finite).trans ?_
    omega
  · refine (unpacked.isNegative_eq finite).trans ?_
    unfold signOf
    cases isNegative x <;> rfl

end Onboard.Double
