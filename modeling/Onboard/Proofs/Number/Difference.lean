import Mathlib
import Onboard.Proofs.Number.Quotient

/-! Positive doubles subtracted from each other, and divided by themselves. A difference is exact at the smaller of two
exponents, and from there it is rounded but once. -/

namespace Onboard.Double
open Float.Model (Format UnpackedFloat totalExponent)
open Float.Model.UnpackedFloat
open BinaryFormat (double)
variable {x y z : Float} {num den : ℕ}

/-- A mantissa that is short is shifted to all bits that are rounded to. -/
theorem round_eq (sign : Sign) {m : ℕ} (e : ℤ) (some : 0 < m) : ∃ shift : ℕ,
    UnpackedFloat.round Format.binary64 sign m e =
        roundWithAccuracy Format.binary64 sign (m * 2 ^ shift) (e - shift) .exact ∧
      (52 ≤ (m * 2 ^ shift).log2 ∨ e - shift ≤ -1074) := by
  have target := targetExponent_spec (totalExponent m e)
  refine ⟨(e - Format.binary64.targetExponent (totalExponent m e)).toNat, ?_, ?_⟩
  · rw [← Nat.shiftLeft_eq]
    rfl
  · by_cases bottom : Format.binary64.targetExponent (totalExponent m e) = -1074
    · exact .inr (by omega)
    · refine .inl ?_
      have log := log2_add_le some (Nat.two_pow_pos (e - Format.binary64.targetExponent (totalExponent m e)).toNat)
      rw [Nat.log2_two_pow] at log
      unfold totalExponent at *
      omega

theorem magnitude_round_exact (sign : Sign) {m : ℕ} {e : ℤ} (some : 0 < m) (someNum : 0 < num) (positive : 0 < den)
    (value : (num / den : ℚ) = m * 2 ^ e) :
    magnitude ⟨.pack (UnpackedFloat.round Format.binary64 sign m e)⟩ = double.roundRatio num den := by
  obtain ⟨shift, rounded, long⟩ := round_eq sign e some
  rw [rounded]
  refine magnitude_round sign someNum positive (tells_exact _) ?_ long
  rw [value, zpow_sub₀ two_ne_zero, zpow_natCast]
  push_cast
  field_simp

/-- A shift down to a smaller exponent keeps the value. -/
theorem value_aligned {s : Scaled} {e : ℤ} (low : e ≤ s.exponent) :
    ((s.coefficient <<< (s.exponent - e).toNat : ℕ) * 2 ^ e : ℚ) = s.value := by
  obtain ⟨k, exponent⟩ := Int.exists_add_of_le low
  rw [Nat.shiftLeft_eq, Scaled.value, exponent, add_sub_cancel_left, Int.toNat_natCast, two_zpow_add, zpow_natCast]
  push_cast
  ring

section Operations
variable (finiteX : x.isFinite = true) (finiteY : y.isFinite = true) (signX : isNegative x = false)
  (signY : isNegative y = false)
include finiteX finiteY signX signY

/-- With both mantissas at one exponent the difference is exact. -/
theorem sub_eq (positive : 0 < (scaled y).value) (less : (scaled y).value < (scaled x).value) : ∃ (m : ℕ) (e : ℤ),
    x - y = ⟨.pack (UnpackedFloat.round Format.binary64 .positive m e)⟩ ∧ 0 < m ∧
      (m * 2 ^ e : ℚ) = (scaled x).value - (scaled y).value := by
  obtain ⟨someX, unpackX⟩ := unpack_of_nonzero finiteX (positive.trans less).ne'
  obtain ⟨someY, unpackY⟩ := unpack_of_nonzero finiteY positive.ne'
  rw [show signOf x = .positive by rw [signOf, signX]; rfl] at unpackX
  rw [show signOf y = .positive by rw [signOf, signY]; rfl] at unpackY
  generalize least : Min.min (scaled x).exponent (scaled y).exponent = e
  generalize shiftedX : (scaled x).coefficient <<< ((scaled x).exponent - e).toNat = m
  generalize shiftedY : (scaled y).coefficient <<< ((scaled y).exponent - e).toNat = n
  have valueX : (m * 2 ^ e : ℚ) = (scaled x).value := shiftedX ▸ value_aligned (least ▸ Int.min_le_left ..)
  have valueY : (n * 2 ^ e : ℚ) = (scaled y).value := shiftedY ▸ value_aligned (least ▸ Int.min_le_right ..)
  have order : n < m := by
    rw [← valueX, ← valueY] at less
    exact_mod_cast lt_of_mul_lt_mul_right less (two_zpow_pos e).le
  refine ⟨m - n, e, ?_, Nat.sub_pos_of_lt order, ?_⟩
  · change (⟨.pack (sub Format.binary64 x.toModel.unpack y.toModel.unpack)⟩ : Float) = _
    rw [unpackX, unpackY]
    change (⟨.pack (normalize Format.binary64
      (((scaled x).coefficient <<< ((scaled x).exponent - Min.min (scaled x).exponent (scaled y).exponent).toNat : ℕ) -
        ((scaled y).coefficient <<< ((scaled y).exponent - Min.min (scaled x).exponent (scaled y).exponent).toNat : ℕ))
      (Min.min (scaled x).exponent (scaled y).exponent) .positive)⟩ : Float) = _
    have above : compare ((m : ℤ) - n) 0 = .gt := Int.compare_eq_gt.mpr (by omega)
    rw [least, shiftedX, shiftedY]
    unfold UnpackedFloat.normalize
    rw [above, ← Int.toNat_sub]
  · rw [Nat.cast_sub order.le, sub_mul, valueX, valueY]

/-- A difference is the double nearest the exact one. -/
theorem rounds_sub (positive : 0 < (scaled y).value)
    (low : (2 : ℚ) ^ (-1000 : ℤ) ≤ (scaled x).value - (scaled y).value)
    (high : (scaled x).value - (scaled y).value < BinaryFormat.overflow) :
    Rounds (x - y) ((scaled x).value - (scaled y).value) := by
  have less := sub_pos.mp ((two_zpow_pos _).trans_le low)
  obtain ⟨num, den, some, positiveDen, value⟩ := exists_fraction ((two_zpow_pos _).trans_le low)
  obtain ⟨m, e, difference, someM, exact⟩ := sub_eq finiteX finiteY signX signY positive less
  refine rounds_of_nearest positiveDen ?_ ?_ value low high
  · rw [difference]
    exact magnitude_round_exact .positive someM some positiveDen (value.trans exact.symm)
  · obtain ⟨shift, rounded, -⟩ := round_eq .positive e someM
    rw [difference, rounded, isNegative_round]
    rfl

end Operations

theorem Rounds.between {t : ℚ} (rounds : Rounds z t) : t / 2 ≤ (scaled z).value ∧ (scaled z).value ≤ 2 * t := by
  have near := rounds.near
  have below := neg_abs_le ((scaled z).value - t)
  have above := le_abs_self ((scaled z).value - t)
  constructor <;> linarith

theorem Rounds.value_pos {t : ℚ} (rounds : Rounds z t) (positive : 0 < t) : 0 < (scaled z).value :=
  (half_pos positive).trans_le rounds.between.1

theorem pos_of_value (finite : x.isFinite = true) (sign : isNegative x = false) (positive : 0 < (scaled x).value) :
    0.0 < x := by
  rw [lt_iff_magnitude (by decide) (number_of_isFinite finite) (by decide) sign]
  refine Nat.pos_of_ne_zero fun none => positive.ne' ?_
  rw [scaled, none, show double.decode 0 = ⟨0, -1074⟩ by rfl, Scaled.value, Nat.cast_zero, zero_mul]

theorem Rounds.pos {t : ℚ} (rounds : Rounds z t) (positive : 0 < t) : 0.0 < z :=
  pos_of_value rounds.finite rounds.isNegative (rounds.value_pos positive)

theorem self_div_self (positive : 0.0 < x) (finite : x.isFinite = true) : x / x = 1.0 := by
  have same : ((1 : ℕ) / (1 : ℕ) : ℚ) = (scaled x).value / (scaled x).value := by
    rw [div_self (value_pos positive).ne', Nat.cast_one, div_one]
  obtain ⟨nearest, sign⟩ := div_nearest finite finite Nat.one_pos Nat.one_pos same
  refine eq_of_parts ?_ ?_
  · rw [sign, bne_self_eq_false]
    decide
  · rw [nearest]
    decide

end Onboard.Double
