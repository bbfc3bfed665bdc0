import Mathlib
import Onboard.Proofs.Number.Shortest

/-! What rounds to a magnitude. The exponent of a fraction is the only one that leaves it as many bits as the format
has, so that all numbers in the interval of a magnitude round to it, also below a power of two, where they carry. -/

namespace Onboard

/-- The integer that is no more than a half away, from an odd one less than that. -/
theorem roundHalfEven_eq {num den k : ℕ} (positive : 0 < den) (lower : 2 * (k * den) ≤ 2 * num + den)
    (upper : 2 * num ≤ 2 * (k * den) + den)
    (tie : k % 2 = 1 → 2 * (k * den) < 2 * num + den ∧ 2 * num < 2 * (k * den) + den) : roundHalfEven num den = k := by
  have whole := Nat.div_add_mod num den
  have rest := Nat.mod_lt num positive
  unfold roundHalfEven
  dsimp only
  generalize num % den = r at *
  generalize num / den = w at *
  have least : w ≤ k := by
    by_contra below
    have step : (k + 1) * den ≤ w * den := Nat.mul_le_mul_right den (Nat.not_le.mp below)
    rw [Nat.succ_mul, Nat.mul_comm w] at step
    omega
  have greatest : k ≤ w + 1 := by
    by_contra above
    have step : (w + 2) * den ≤ k * den := Nat.mul_le_mul_right den (Nat.not_le.mp above)
    rw [Nat.add_mul, Nat.mul_comm w] at step
    omega
  rcases Nat.eq_or_lt_of_le least with rfl | above
  · rw [Nat.mul_comm w] at lower upper tie
    split_ifs <;> omega
  · obtain rfl : k = w + 1 := by omega
    have product : (w + 1) * den = den * w + den := by ring
    rw [product] at lower upper tie
    split_ifs <;> omega

/-- The bounds on a fraction as bounds on its numerator. -/
theorem roundHalfEven_eq_of_near {num den k : ℕ} (positive : 0 < den) (lower : (k - 1 / 2 : ℚ) ≤ num / den)
    (upper : (num / den : ℚ) ≤ k + 1 / 2)
    (tie : k % 2 = 1 → (k - 1 / 2 : ℚ) < num / den ∧ (num / den : ℚ) < k + 1 / 2) : roundHalfEven num den = k := by
  have denominator : (0 : ℚ) < den := Nat.cast_pos.mpr positive
  rw [le_div_iff₀ denominator] at lower
  rw [div_le_iff₀ denominator] at upper
  rw [lt_div_iff₀ denominator, div_lt_iff₀ denominator] at tie
  refine roundHalfEven_eq positive ?_ ?_ fun odd => ⟨?_, ?_⟩
  · exact_mod_cast (by linarith : (2 * (k * den) : ℚ) ≤ 2 * num + den)
  · exact_mod_cast (by linarith : (2 * num : ℚ) ≤ 2 * (k * den) + den)
  · exact_mod_cast (by linarith [(tie odd).1] : (2 * (k * den) : ℚ) < 2 * num + den)
  · exact_mod_cast (by linarith [(tie odd).2] : (2 * num : ℚ) < 2 * (k * den) + den)

/-- The interval in units of the last bit: half a unit on either side, and below a power of two a quarter. -/
structure Near (f : BinaryFormat) (s : Scaled) (q : ℚ) : Prop where
  lower : (s.coefficient - 1 / 2) * 2 ^ s.exponent ≤ q
  upper : q ≤ (s.coefficient + 1 / 2) * 2 ^ s.exponent
  odd : s.coefficient % 2 = 1 →
    (s.coefficient - 1 / 2) * 2 ^ s.exponent < q ∧ q < (s.coefficient + 1 / 2) * 2 ^ s.exponent
  power : s.coefficient = 2 ^ (f.precision - 1) → f.minExponent < s.exponent →
    (s.coefficient - 1 / 4) * 2 ^ s.exponent ≤ q

theorem Decimal.Interval.Holds.near {f : BinaryFormat} {magnitude : ℕ} (some : 0 < (f.decode magnitude).coefficient)
    (holds : (Interval.of f magnitude).Holds q) : Near f (f.decode magnitude) q := by
  obtain ⟨ge, le, inside⟩ := holds
  rw [unit_of] at ge le inside
  have quarter : (2 : ℚ) ^ ((f.decode magnitude).exponent - 2) = 2 ^ (f.decode magnitude).exponent / 4 := by
    rw [zpow_sub₀ two_ne_zero]
    norm_num
  have low : (Interval.of f magnitude).low =
      4 * (f.decode magnitude).coefficient - if (f.decode magnitude).coefficient = 2 ^ (f.precision - 1) ∧
        f.minExponent < (f.decode magnitude).exponent then 1 else 2 := by
    rw [← Nat.one_shiftLeft]
    rfl
  have high : (Interval.of f magnitude).high = 4 * (f.decode magnitude).coefficient + 2 := rfl
  have closed : (Interval.of f magnitude).closed = decide ((f.decode magnitude).coefficient % 2 = 0) := rfl
  rw [quarter, low] at ge
  rw [quarter, high] at le
  rw [quarter, low, high, closed] at inside
  have unit := two_zpow_pos (f.decode magnitude).exponent
  generalize f.decode magnitude = s at *
  have upper : ((4 * s.coefficient + 2 : ℕ) : ℚ) * (2 ^ s.exponent / 4) = (s.coefficient + 1 / 2) * 2 ^ s.exponent := by
    push_cast
    ring
  rw [upper] at le inside
  split at ge
  · next power =>
    have lower : ((4 * s.coefficient - 1 : ℕ) : ℚ) * (2 ^ s.exponent / 4) =
        (s.coefficient - 1 / 4) * 2 ^ s.exponent := by
      rw [Nat.cast_sub (by omega)]
      push_cast
      ring
    rw [if_pos power, lower] at inside
    rw [lower] at ge
    refine ⟨by linarith, le, fun odd => ⟨by linarith, (inside (decide_eq_false (by omega))).2⟩, fun _ _ => ge⟩
  · next usual =>
    have lower : ((4 * s.coefficient - 2 : ℕ) : ℚ) * (2 ^ s.exponent / 4) =
        (s.coefficient - 1 / 2) * 2 ^ s.exponent := by
      rw [Nat.cast_sub (by omega)]
      push_cast
      ring
    rw [if_neg usual, lower] at inside
    rw [lower] at ge
    exact ⟨ge, le, fun odd => inside (decide_eq_false (by omega)), fun half above => absurd ⟨half, above⟩ usual⟩

namespace BinaryFormat
variable {f : BinaryFormat} {num den : ℕ}

theorem exponentFor_eq (some : 0 < num) (positive : 0 < den) {e : ℤ} (least : f.minExponent ≤ e)
    (high : (num / den : ℚ) < 2 ^ (f.precision + e))
    (low : e = f.minExponent ∨ (2 : ℚ) ^ (f.precision + e - 1) ≤ num / den) : f.exponentFor num den = e := by
  obtain ⟨least', high', low'⟩ := f.exponentFor_spec some positive
  have above : f.exponentFor num den ≤ e := by
    rcases low' with bottom | low'
    · omega
    · have := two_zpow_lt_iff.mp (low'.trans_lt high)
      omega
  have below : e ≤ f.exponentFor num den := by
    rcases low with bottom | low
    · omega
    · have := two_zpow_lt_iff.mp (low.trans_lt high')
      omega
  exact Int.le_antisymm above below

/-- The coefficient before a carry, if it is known at which exponent the fraction is rounded. -/
theorem coefficientFor_eq (positive : 0 < den) {c : ℕ} {e : ℤ} (exponent : f.exponentFor num den = e)
    (lower : ((c - 1 / 2) * 2 ^ e : ℚ) ≤ num / den) (upper : (num / den : ℚ) ≤ (c + 1 / 2) * 2 ^ e)
    (tie : c % 2 = 1 → ((c - 1 / 2) * 2 ^ e : ℚ) < num / den ∧ (num / den : ℚ) < (c + 1 / 2) * 2 ^ e) :
    f.coefficientFor num den = c := by
  rw [← le_div_iff₀ (two_zpow_pos e)] at lower
  rw [← div_le_iff₀ (two_zpow_pos e)] at upper
  rw [← lt_div_iff₀ (two_zpow_pos e), ← div_lt_iff₀ (two_zpow_pos e)] at tie
  rw [← unscale_eq] at lower upper tie
  rw [coefficientFor, exponent]
  exact roundHalfEven_eq_of_near (unscale_pos positive num e) lower upper tie

/-- Exponents count the magnitudes below. -/
theorem encode_eq {magnitude c k : ℕ} {e : ℤ} (finite : magnitude ≤ f.infinity) (exponent : e = f.minExponent + k)
    (same : magnitude = k * 2 ^ (f.precision - 1) + c) : f.encode ⟨c, e⟩ = magnitude := by
  have shift : (e - f.minExponent).toNat = k := by omega
  rw [encode, shift, Nat.shiftLeft_eq, ← same]
  exact Nat.min_eq_right finite

theorem encode_eq_infinity {c k : ℕ} {e : ℤ} (exponent : e = f.minExponent + k)
    (high : f.infinity ≤ k * 2 ^ (f.precision - 1) + c) : f.encode ⟨c, e⟩ = f.infinity := by
  have shift : (e - f.minExponent).toNat = k := by omega
  rw [encode, shift, Nat.shiftLeft_eq]
  exact Nat.min_eq_left high

theorem precision_pow (precise : 2 ≤ f.precision) : 2 ^ f.precision = 2 * 2 ^ (f.precision - 1) := by
  rw [← Nat.pow_succ']
  congr 1
  omega

/-- Every number in its interval rounds to a magnitude. -/
theorem roundRatio_of_near (precise : 2 ≤ f.precision) (positive : 0 < den) {magnitude : ℕ} (some : 0 < magnitude)
    (finite : magnitude < f.infinity) (near : Near f (f.decode magnitude) (num / den)) :
    f.roundRatio num den = magnitude := by
  obtain ⟨k, exponent, same, small, normal⟩ := f.decoded magnitude
  obtain ⟨lower, upper, odd, power⟩ := near
  generalize (f.decode magnitude).coefficient = c at *
  generalize (f.decode magnitude).exponent = e at *
  have unit := two_zpow_pos e
  have leading : 0 < 2 ^ (f.precision - 1) := Nat.two_pow_pos _
  have coefficient : (1 : ℚ) ≤ c := Nat.one_le_cast.mpr (by
    rcases normal with rfl | normal <;> omega)
  have numerator : 0 < num := by
    refine Nat.pos_of_ne_zero fun zero => ?_
    rw [zero, Nat.cast_zero, zero_div] at lower
    exact absurd lower (not_le.mpr (mul_pos (by linarith) unit))
  have bits := precision_pow precise
  have high : (num / den : ℚ) < 2 ^ (f.precision + e) := by
    refine upper.trans_lt ?_
    rw [two_zpow_add, zpow_natCast]
    refine mul_lt_mul_of_pos_right ?_ unit
    have : (c + 1 : ℚ) ≤ 2 ^ f.precision := by exact_mod_cast (by omega : c + 1 ≤ 2 ^ f.precision)
    linarith
  rw [roundRatio_eq f numerator]
  by_cases low : e = f.minExponent ∨ (2 : ℚ) ^ (f.precision + e - 1) ≤ num / den
  · have found := exponentFor_eq numerator positive (by omega) high low
    rw [found, coefficientFor_eq positive found lower upper odd]
    exact encode_eq finite.le exponent same
  · -- Below a power of two the fraction has a bit more, and the rounding carries.
    rw [not_or, not_le] at low
    obtain ⟨above, below⟩ := low
    obtain ⟨j, rfl⟩ := Nat.exists_eq_succ_of_ne_zero (show k ≠ 0 by rintro rfl; exact above (by omega))
    have half : (2 : ℚ) ^ (f.precision + e - 1) = 2 ^ (f.precision - 1) * 2 ^ e := by
      rw [← zpow_natCast, ← two_zpow_add]
      congr 1
      omega
    have least : c ≤ 2 ^ (f.precision - 1) := by
      have bound : (c - 1 / 2 : ℚ) < 2 ^ (f.precision - 1) := by
        rw [← mul_lt_mul_iff_left₀ unit, ← half]
        exact lower.trans_lt below
      by_contra more
      have : (2 ^ (f.precision - 1) + 1 : ℚ) ≤ c := by exact_mod_cast (Nat.not_le.mp more)
      linarith
    obtain rfl : c = 2 ^ (f.precision - 1) := by omega
    have quarter := power rfl (by omega)
    rw [Nat.cast_pow, Nat.cast_ofNat] at quarter
    have up : (2 : ℚ) ^ e = 2 * 2 ^ (e - 1) := by
      rw [← zpow_one_add₀ two_ne_zero]
      congr 1
      omega
    have whole : ((2 ^ f.precision : ℕ) : ℚ) = 2 * 2 ^ (f.precision - 1) := by exact_mod_cast bits
    have one : (1 : ℚ) ≤ 2 ^ (f.precision - 1) := one_le_pow₀ (by norm_num)
    have found : f.exponentFor num den = e - 1 := by
      refine exponentFor_eq numerator positive (by omega) (below.trans_eq ?_) (.inr (le_trans ?_ quarter))
      · congr 1
        omega
      · have rest : (2 : ℚ) ^ (f.precision + (e - 1) - 1) * 2 = 2 ^ (f.precision - 1) * 2 ^ e := by
          rw [← half, ← zpow_add_one₀ two_ne_zero]
          congr 1
          omega
        nlinarith
    have carried : f.coefficientFor num den = 2 ^ f.precision := by
      rw [half] at below
      refine coefficientFor_eq positive found ?_ ?_ fun odd => ?_
      · rw [whole]
        refine le_trans (le_of_eq ?_) quarter
        rw [up]
        ring
      · rw [whole]
        rw [up] at below
        nlinarith [two_zpow_pos (e - 1)]
      · omega
    rw [found, carried]
    refine encode_eq (k := j) finite.le (by omega) ?_
    rw [same, bits, Nat.succ_mul]
    omega

theorem roundRatio_of_holds (precise : 2 ≤ f.precision) (positive : 0 < den) {magnitude : ℕ} (some : 0 < magnitude)
    (finite : magnitude < f.infinity) (holds : (Decimal.Interval.of f magnitude).Holds (num / den)) :
    f.roundRatio num den = magnitude := by
  refine roundRatio_of_near precise positive some finite (holds.near ?_)
  obtain ⟨k, -, same, -, normal⟩ := f.decoded magnitude
  have leading : 0 < 2 ^ (f.precision - 1) := Nat.two_pow_pos _
  rcases normal with rfl | normal <;> omega

/-- Coefficients up to the next power of two are told apart by their magnitudes. -/
theorem value_decode {magnitude c k : ℕ} (precise : 2 ≤ f.precision) (same : magnitude = k * 2 ^ (f.precision - 1) + c)
    (small : c ≤ 2 ^ f.precision) (normal : k = 0 ∨ 2 ^ (f.precision - 1) ≤ c) :
    (f.decode magnitude).value = c * 2 ^ (f.minExponent + k) := by
  obtain ⟨j, exponent, decoded, less, full⟩ := f.decoded magnitude
  have bits := precision_pow precise
  have leading : 0 < 2 ^ (f.precision - 1) := Nat.two_pow_pos _
  rw [Scaled.value, exponent]
  generalize (f.decode magnitude).coefficient = d at *
  generalize 2 ^ (f.precision - 1) = half at *
  rcases Nat.lt_trichotomy j k with below | rfl | above
  · have step : (j + 1) * half ≤ k * half := Nat.mul_le_mul_right half below
    rw [Nat.succ_mul] at step
    omega
  · have coefficients : c = d := by omega
    rw [coefficients]
  · -- The coefficient has carried to the next exponent.
    have step : (k + 1) * half ≤ j * half := Nat.mul_le_mul_right half above
    rw [Nat.succ_mul] at step
    obtain ⟨rfl, rfl⟩ : j = k + 1 ∧ c = 2 * d := by
      have next : j < k + 2 := by
        by_contra far
        have step : (k + 2) * half ≤ j * half := Nat.mul_le_mul_right half (Nat.not_lt.mp far)
        rw [Nat.add_mul] at step
        omega
      obtain rfl : j = k + 1 := by omega
      rw [Nat.succ_mul] at decoded
      omega
    push_cast
    rw [← add_assoc, zpow_add_one₀ two_ne_zero]
    ring

/-- Half a unit of the last bit. -/
theorem abs_coefficientFor_sub_le (positive : 0 < den) (num : ℕ) :
    2 * |(f.coefficientFor num den * 2 ^ f.exponentFor num den - num / den : ℚ)| ≤ 2 ^ f.exponentFor num den := by
  have near := roundHalfEven_near (unscale_pos positive num (f.exponentFor num den))
    (unscale num den (f.exponentFor num den)).1
  have scaledDen : (0 : ℚ) < (unscale num den (f.exponentFor num den)).2 := Nat.cast_pos.mpr (unscale_pos positive ..)
  have unit := two_zpow_pos (f.exponentFor num den)
  have ratio := unscale_eq num den (f.exponentFor num den)
  unfold coefficientFor
  generalize f.exponentFor num den = e at *
  generalize unscale num den e = scaled at *
  generalize roundHalfEven scaled.1 scaled.2 = c at *
  have nearQ : 2 * (c * scaled.2 : ℚ) ≤ 2 * scaled.1 + scaled.2 ∧
      2 * (scaled.1 : ℚ) ≤ 2 * (c * scaled.2) + scaled.2 := by
    exact_mod_cast near
  have numerator : (scaled.1 : ℚ) = num / den / 2 ^ e * scaled.2 := by rw [← ratio, div_mul_cancel₀ _ scaledDen.ne']
  have fraction : (num / den : ℚ) = num / den / 2 ^ e * 2 ^ e := (div_mul_cancel₀ _ unit.ne').symm
  rw [numerator] at nearQ
  rw [fraction]
  generalize (num / den / 2 ^ e : ℚ) = x at *
  have bounds : 2 * (c - x) ≤ 1 ∧ -1 ≤ 2 * (c - x) := by
    constructor
    · refine le_of_mul_le_mul_right ?_ scaledDen
      linarith [nearQ.1]
    · refine le_of_mul_le_mul_right ?_ scaledDen
      linarith [nearQ.2]
  rw [← sub_mul, abs_mul, abs_of_pos unit, ← mul_assoc]
  refine mul_le_of_le_one_left unit.le ?_
  rw [← abs_two, ← abs_mul, abs_le]
  exact ⟨bounds.2, bounds.1⟩

section Value
variable (precise : 2 ≤ f.precision) (some : 0 < num) (positive : 0 < den)
include precise some positive

theorem value_roundRatio (finite : f.roundRatio num den < f.infinity) :
    (f.decode (f.roundRatio num den)).value = f.coefficientFor num den * 2 ^ f.exponentFor num den := by
  obtain ⟨least, -, -⟩ := f.exponentFor_spec some positive
  obtain ⟨k, exponent⟩ := Int.exists_add_of_le least
  have carried := f.coefficientFor_le some positive
  have normal : k = 0 ∨ 2 ^ (f.precision - 1) ≤ f.coefficientFor num den := by
    rcases Nat.eq_zero_or_pos k with zero | above
    · exact .inl zero
    · exact .inr (f.le_coefficientFor some positive (by omega) (by omega))
  rw [roundRatio_eq f some] at finite ⊢
  have same : f.encode ⟨f.coefficientFor num den, f.exponentFor num den⟩ =
      k * 2 ^ (f.precision - 1) + f.coefficientFor num den := by
    have shift : (f.exponentFor num den - f.minExponent).toNat = k := by omega
    rw [encode, shift, Nat.shiftLeft_eq] at finite ⊢
    exact Nat.min_eq_right (by omega)
  rw [value_decode precise same carried normal, exponent]

/-- A rounding moves a number of full precision by half a unit of its last bit at most. -/
theorem abs_value_sub_le (finite : f.roundRatio num den < f.infinity)
    (full : (2 : ℚ) ^ (f.precision + f.minExponent - 1) ≤ num / den) :
    2 ^ f.precision * |(f.decode (f.roundRatio num den)).value - num / den| ≤ (num / den : ℚ) := by
  obtain ⟨-, -, low⟩ := f.exponentFor_spec some positive
  have normal : (2 : ℚ) ^ (f.precision + f.exponentFor num den - 1) ≤ num / den := by
    rcases low with bottom | low
    · rwa [bottom]
    · exact low
  have half : (2 : ℚ) ^ f.precision * 2 ^ f.exponentFor num den =
      2 * 2 ^ (f.precision + f.exponentFor num den - 1) := by
    rw [← zpow_natCast, ← two_zpow_add, ← zpow_one_add₀ two_ne_zero]
    congr 1
    omega
  have distance := mul_le_mul_of_nonneg_left (f.abs_coefficientFor_sub_le positive num)
    (pow_pos (two_pos : (0 : ℚ) < 2) f.precision).le
  rw [value_roundRatio precise some positive finite]
  linarith

/-- A number of the format is left as it is. -/
theorem value_of_exact (finite : f.roundRatio num den < f.infinity) {c : ℕ} {e : ℤ} (small : c < 2 ^ f.precision)
    (least : f.minExponent ≤ e) (exact : (num / den : ℚ) = c * 2 ^ e) :
    (f.decode (f.roundRatio num den)).value = num / den := by
  obtain ⟨-, -, low⟩ := f.exponentFor_spec some positive
  have order : f.exponentFor num den ≤ e := by
    rcases low with bottom | low
    · omega
    · have high : (num / den : ℚ) < 2 ^ (f.precision + e) := by
        rw [exact, two_zpow_add, zpow_natCast]
        exact mul_lt_mul_of_pos_right (by exact_mod_cast small) (two_zpow_pos e)
      have := two_zpow_lt_iff.mp (low.trans_lt high)
      omega
  obtain ⟨k, exponent⟩ := Int.exists_add_of_le order
  have multiple : (num / den : ℚ) = (c * 2 ^ k : ℕ) * 2 ^ f.exponentFor num den := by
    rw [exact, exponent, two_zpow_add, zpow_natCast]
    push_cast
    ring
  have unit := two_zpow_pos (f.exponentFor num den)
  have coefficient : f.coefficientFor num den = c * 2 ^ k := by
    refine coefficientFor_eq positive rfl ?_ ?_ fun _ => ⟨?_, ?_⟩ <;> rw [multiple]
    · exact mul_le_mul_of_nonneg_right (by linarith) unit.le
    · exact mul_le_mul_of_nonneg_right (by linarith) unit.le
    · exact mul_lt_mul_of_pos_right (by linarith) unit
    · exact mul_lt_mul_of_pos_right (by linarith) unit
  rw [value_roundRatio precise some positive finite, coefficient, multiple]

end Value

/-- Decimals that are neither tiny nor huge are rounded as fractions. -/
theorem roundDecimal_eq {digits : ℕ} {exponent : ℤ} (low : (2 : ℚ) ^ (-2000 : ℤ) ≤ digits * 10 ^ exponent)
    (high : (digits * 10 ^ exponent : ℚ) < 2 ^ (2000 : ℤ)) : ∃ num den : ℕ, 0 < den ∧
      (num / den : ℚ) = digits * 10 ^ exponent ∧ double.roundDecimal digits exponent = double.roundRatio num den := by
  have some : 0 < digits := pos_of_two_zpow_le low
  have digit : (1 : ℚ) ≤ digits := Nat.one_le_cast.mpr some
  have notHuge : ¬ (2048 : ℤ) < exponent := by
    intro huge
    have power : (2 : ℚ) ^ (2000 : ℤ) ≤ 10 ^ exponent :=
      (two_zpow_le (by omega)).trans (zpow_le_zpow_left₀ (by omega) (by norm_num) (by norm_num))
    exact absurd (power.trans (le_mul_of_one_le_left (ten_zpow_pos exponent).le digit)) (not_le.mpr high)
  have notTiny : ¬ exponent < -(digits.log2 : ℤ) - 2048 := by
    intro tiny
    have power : (10 : ℚ) ^ exponent ≤ 2 ^ exponent := by
      obtain ⟨k, rfl⟩ := Int.exists_eq_neg_ofNat (show exponent ≤ 0 by omega)
      rw [zpow_neg, zpow_neg, zpow_natCast, zpow_natCast]
      exact inv_anti₀ (by positivity) (pow_le_pow_left₀ (by norm_num) (by norm_num) k)
    have below : (digits * 10 ^ exponent : ℚ) < 2 ^ (-2000 : ℤ) := by
      calc
        (digits * 10 ^ exponent : ℚ) ≤ digits * 2 ^ exponent :=
          mul_le_mul_of_nonneg_left power (Nat.cast_nonneg _)
        _ < 2 ^ (digits.log2 + 1 : ℤ) * 2 ^ exponent :=
          mul_lt_mul_of_pos_right (lt_two_pow_log2 digits) (two_zpow_pos _)
        _ ≤ 2 ^ (-2000 : ℤ) := by
          rw [← two_zpow_add]
          exact two_zpow_le (by omega)
    exact absurd low (not_le.mpr below)
  have range : ((1 <<< double.exponentBits : ℕ) : ℤ) = 2048 := rfl
  unfold roundDecimal
  dsimp only
  rw [range, if_neg some.ne', if_neg notHuge, if_neg notTiny]
  split
  · next up =>
    obtain ⟨k, rfl⟩ := Int.eq_ofNat_of_zero_le up
    exact ⟨_, 1, Nat.one_pos, by simp, rfl⟩
  · next down =>
    obtain ⟨k, rfl⟩ := Int.exists_eq_neg_ofNat (Int.le_of_lt (Int.not_le.mp down))
    refine ⟨digits, _, Nat.pow_pos (by norm_num), ?_, rfl⟩
    simp [div_eq_mul_inv]

/-- What rounds to a finite double is in range. -/
theorem range_of_near {magnitude : ℕ} (some : 0 < magnitude) (finite : magnitude < double.infinity)
    (near : Near double (double.decode magnitude) q) : (2 : ℚ) ^ (-2000 : ℤ) ≤ q ∧ q < overflow := by
  obtain ⟨k, exponent, same, small, normal⟩ := double.decoded magnitude
  obtain ⟨lower, upper, odd, -⟩ := near
  rw [precision_double] at *
  rw [minExponent_double] at exponent
  rw [infinity_double] at finite
  generalize (double.decode magnitude).coefficient = c at *
  generalize (double.decode magnitude).exponent = e at *
  have unit := two_zpow_pos e
  constructor
  · have coefficient : (1 : ℚ) ≤ c := Nat.one_le_cast.mpr (by omega)
    calc
      (2 : ℚ) ^ (-2000 : ℤ) ≤ 2 ^ (-1 : ℤ) * 2 ^ e := by
        rw [← two_zpow_add]
        exact two_zpow_le (by omega)
      _ ≤ (c - 1 / 2) * 2 ^ e := mul_le_mul_of_nonneg_right (by norm_num; linarith) unit.le
      _ ≤ q := lower
  · have top : (2 : ℚ) ^ e * (2 ^ 53 - 1 / 2) ≤ overflow := by
      rw [overflow, show (970 : ℤ) = 971 - 1 by rfl, zpow_sub₀ two_ne_zero]
      have := two_zpow_le (show e ≤ 971 by omega)
      linarith
    refine lt_of_lt_of_le ?_ top
    rcases Nat.mod_two_eq_zero_or_one c with even | set
    · have coefficient : (c : ℚ) ≤ 2 ^ 53 - 2 := by
        rw [le_sub_iff_add_le]
        exact_mod_cast (by omega : c + 2 ≤ 2 ^ 53)
      nlinarith
    · have coefficient : (c : ℚ) ≤ 2 ^ 53 - 1 := by
        rw [le_sub_iff_add_le]
        exact_mod_cast (by omega : c + 1 ≤ 2 ^ 53)
      have := (odd set).2
      nlinarith

theorem roundDecimal_of_near {magnitude digits : ℕ} {exponent : ℤ} (some : 0 < magnitude)
    (finite : magnitude < double.infinity) (near : Near double (double.decode magnitude) (digits * 10 ^ exponent)) :
    double.roundDecimal digits exponent = magnitude := by
  obtain ⟨low, high⟩ := range_of_near some finite near
  obtain ⟨num, den, positive, value, same⟩ :=
    roundDecimal_eq low (high.trans (overflow_lt.trans_le (two_zpow_le (by decide))))
  rw [same]
  exact roundRatio_of_near (by decide) positive some finite (value ▸ near)

end BinaryFormat

end Onboard
