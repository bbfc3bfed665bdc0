import Mathlib
import Onboard.Number.Format

/-! Rounding to a binary format, against the rational numbers. The exponent leaves no more bits than the format has
and, above the least exponent, no fewer, so that rounding keeps the order; what lies below the last number and half
the gap above it does not round to infinity. -/

namespace Onboard

def Scaled.value (x : Scaled) : ℚ :=
  x.coefficient * 2 ^ x.exponent

theorem two_zpow_pos (e : ℤ) : (0 : ℚ) < 2 ^ e :=
  zpow_pos (by decide) e

theorem two_zpow_le {d e : ℤ} (order : d ≤ e) : (2 : ℚ) ^ d ≤ 2 ^ e :=
  zpow_le_zpow_right₀ (by decide) order

theorem two_zpow_lt_iff {d e : ℤ} : (2 : ℚ) ^ d < 2 ^ e ↔ d < e :=
  zpow_lt_zpow_iff_right₀ (by decide)

/-- A number with a positive multiple is not zero. -/
theorem pos_of_two_zpow_le {n : ℕ} {q : ℚ} {e : ℤ} (low : (2 : ℚ) ^ e ≤ n * q) : 0 < n := by
  refine Nat.pos_of_ne_zero fun zero => ?_
  rw [zero, Nat.cast_zero, zero_mul] at low
  exact absurd low (not_le.mpr (two_zpow_pos e))

theorem two_zpow_add (d e : ℤ) : (2 : ℚ) ^ (d + e) = 2 ^ d * 2 ^ e :=
  zpow_add₀ (by decide) d e

theorem unscale_pos {den : ℕ} (positive : 0 < den) (num : ℕ) (e : ℤ) : 0 < (unscale num den e).2 := by
  unfold unscale
  split
  · rw [Nat.shiftLeft_eq]
    positivity
  · exact positive

theorem unscale_eq (num den : ℕ) (e : ℤ) :
    ((unscale num den e).1 : ℚ) / (unscale num den e).2 = num / den / 2 ^ e := by
  unfold unscale
  split
  · next up =>
    obtain ⟨k, rfl⟩ := Int.eq_ofNat_of_zero_le up
    simp only [Int.toNat_natCast, Nat.shiftLeft_eq, Nat.cast_mul, Nat.cast_pow, Nat.cast_ofNat, zpow_natCast]
    rw [div_div]
  · next down =>
    obtain ⟨k, rfl⟩ := Int.exists_eq_neg_ofNat (Int.le_of_lt (Int.not_le.mp down))
    simp only [neg_neg, Int.toNat_natCast, Nat.shiftLeft_eq, Nat.cast_mul, Nat.cast_pow, Nat.cast_ofNat, zpow_neg,
      zpow_natCast, div_inv_eq_mul]
    rw [div_mul_eq_mul_div]

/-- Comparing with a multiple of the unit. -/
theorem unscale_lt_iff {den : ℕ} (positive : 0 < den) (num k : ℕ) (e : ℤ) :
    (unscale num den e).1 < k * (unscale num den e).2 ↔ (num / den : ℚ) < k * 2 ^ e := by
  have denominator : (0 : ℚ) < (unscale num den e).2 := Nat.cast_pos.mpr (unscale_pos positive num e)
  rw [← div_lt_iff₀ (two_zpow_pos e), ← unscale_eq, div_lt_iff₀ denominator]
  exact_mod_cast Iff.rfl

theorem unscale_mono {num num' : ℕ} (order : num ≤ num') (den : ℕ) (e : ℤ) :
    (unscale num den e).1 ≤ (unscale num' den e).1 ∧ (unscale num den e).2 = (unscale num' den e).2 := by
  unfold unscale
  split
  · exact ⟨order, rfl⟩
  · rw [Nat.shiftLeft_eq, Nat.shiftLeft_eq]
    exact ⟨Nat.mul_le_mul_right _ order, rfl⟩

theorem two_pow_log2_le {n : ℕ} (positive : 0 < n) : (2 : ℚ) ^ (n.log2 : ℤ) ≤ n := by
  rw [zpow_natCast]
  exact_mod_cast Nat.log2_self_le positive.ne'

theorem lt_two_pow_log2 (n : ℕ) : (n : ℚ) < 2 ^ (n.log2 + 1 : ℤ) := by
  have bound : n < 2 ^ (n.log2 + 1) := Nat.lt_log2_self
  exact_mod_cast bound

section Nearest
variable {num den k : ℕ}

/-- The distance is at most a half. -/
theorem roundHalfEven_near (positive : 0 < den) (num : ℕ) :
    2 * (roundHalfEven num den * den) ≤ 2 * num + den ∧ 2 * num ≤ 2 * (roundHalfEven num den * den) + den := by
  have whole := Nat.div_add_mod num den
  have rest := Nat.mod_lt num positive
  have next : (num / den + 1) * den = den * (num / den) + den := by ring
  have same : num / den * den = den * (num / den) := Nat.mul_comm _ _
  unfold roundHalfEven
  dsimp only
  split
  · omega
  · split
    · omega
    · rcases Nat.mod_two_eq_zero_or_one (num / den) with even | odd
      · rw [even, Nat.add_zero]
        omega
      · rw [odd]
        omega

theorem roundHalfEven_le (positive : 0 < den) (bound : num ≤ k * den) : roundHalfEven num den ≤ k := by
  have near := (roundHalfEven_near positive num).1
  by_contra above
  have step : (k + 1) * den ≤ roundHalfEven num den * den := Nat.mul_le_mul_right den (Nat.not_le.mp above)
  rw [Nat.succ_mul] at step
  omega

theorem le_roundHalfEven (positive : 0 < den) (bound : k * den ≤ num) : k ≤ roundHalfEven num den := by
  have near := (roundHalfEven_near positive num).2
  by_contra below
  have step : (roundHalfEven num den + 1) * den ≤ k * den := Nat.mul_le_mul_right den (Nat.not_le.mp below)
  rw [Nat.succ_mul] at step
  omega

theorem roundHalfEven_lt (positive : 0 < den) (bound : 2 * num + den < 2 * (k * den)) : roundHalfEven num den < k := by
  have near := (roundHalfEven_near positive num).1
  by_contra above
  have step : k * den ≤ roundHalfEven num den * den := Nat.mul_le_mul_right den (Nat.not_lt.mp above)
  omega

theorem roundHalfEven_mono {num' : ℕ} (order : num ≤ num') : roundHalfEven num den ≤ roundHalfEven num' den := by
  have whole := Nat.div_add_mod num den
  have whole' := Nat.div_add_mod num' den
  have quotients : num / den ≤ num' / den := Nat.div_le_div_right order
  have upper : roundHalfEven num den ≤ num / den + 1 := by
    unfold roundHalfEven
    dsimp only
    split_ifs <;> omega
  have lower : num' / den ≤ roundHalfEven num' den := by
    unfold roundHalfEven
    dsimp only
    split_ifs <;> omega
  rcases Nat.lt_or_eq_of_le quotients with less | same
  · exact upper.trans (less.trans_le lower)
  · rw [← same] at whole'
    unfold roundHalfEven
    dsimp only
    rw [← same]
    split_ifs <;> omega

end Nearest

namespace BinaryFormat
variable (f : BinaryFormat) {num den : ℕ}

theorem exponentFor_spec (some : 0 < num) (positive : 0 < den) :
    f.minExponent ≤ f.exponentFor num den ∧
      (num / den : ℚ) < 2 ^ (f.precision + f.exponentFor num den) ∧
      (f.exponentFor num den = f.minExponent ∨
        (2 : ℚ) ^ (f.precision + f.exponentFor num den - 1) ≤ num / den) := by
  have lowNum := two_pow_log2_le some
  have highNum := lt_two_pow_log2 num
  have lowDen := two_pow_log2_le positive
  have highDen := lt_two_pow_log2 den
  have ratio : (0 : ℚ) < den := Nat.cast_pos.mpr positive
  generalize guessed : (num.log2 : ℤ) - den.log2 - f.precision = guess
  have below : (num / den : ℚ) < 2 ^ (f.precision + (guess + 1)) := by
    rw [div_lt_iff₀ ratio]
    calc
      (num : ℚ) < 2 ^ (num.log2 + 1 : ℤ) := highNum
      _ = 2 ^ (f.precision + (guess + 1)) * 2 ^ (den.log2 : ℤ) := by rw [← two_zpow_add]; congr 1; omega
      _ ≤ _ := mul_le_mul_of_nonneg_left lowDen (two_zpow_pos _).le
  have above : (2 : ℚ) ^ (f.precision + guess - 1) ≤ num / den := by
    rw [le_div_iff₀ ratio]
    calc
      (2 : ℚ) ^ (f.precision + guess - 1) * den ≤ 2 ^ (f.precision + guess - 1) * 2 ^ (den.log2 + 1 : ℤ) :=
        mul_le_mul_of_nonneg_left highDen.le (two_zpow_pos _).le
      _ = 2 ^ (num.log2 : ℤ) := by rw [← two_zpow_add]; congr 1; omega
      _ ≤ _ := lowNum
  -- The guess is one too low where the fraction still has a bit too many.
  have fits : (unscale num den guess).1 < (unscale num den guess).2 <<< f.precision ↔
      (num / den : ℚ) < 2 ^ (f.precision + guess) := by
    rw [Nat.shiftLeft_eq, Nat.mul_comm, unscale_lt_iff positive, two_zpow_add, zpow_natCast, Nat.cast_pow,
      Nat.cast_ofNat]
  unfold exponentFor
  rw [guessed]
  dsimp only
  have least := Int.le_max_left f.minExponent
  split
  · next small =>
    refine ⟨least _, (fits.mp small).trans_le (two_zpow_le (by omega)), ?_⟩
    rcases Int.le_total guess f.minExponent with low | high
    · exact .inl (Int.max_eq_left low)
    · rw [Int.max_eq_right high]
      exact .inr above
  · next large =>
    refine ⟨least _, below.trans_le (two_zpow_le (by omega)), ?_⟩
    rcases Int.le_total (guess + 1) f.minExponent with low | high
    · exact .inl (Int.max_eq_left low)
    · rw [Int.max_eq_right high]
      refine .inr ?_
      rw [show (f.precision : ℤ) + (guess + 1) - 1 = f.precision + guess by omega]
      exact not_lt.mp fun less => large (fits.mpr less)

/-- The coefficient before a carry. -/
def coefficientFor (num den : ℕ) : ℕ :=
  roundHalfEven (unscale num den (f.exponentFor num den)).1 (unscale num den (f.exponentFor num den)).2

theorem roundRatio_eq (some : 0 < num) :
    f.roundRatio num den = f.encode ⟨f.coefficientFor num den, f.exponentFor num den⟩ :=
  if_neg some.ne'

theorem coefficientFor_le (some : 0 < num) (positive : 0 < den) : f.coefficientFor num den ≤ 2 ^ f.precision := by
  obtain ⟨-, bound, -⟩ := f.exponentFor_spec some positive
  refine roundHalfEven_le (unscale_pos positive ..) (Nat.le_of_lt ?_)
  rw [unscale_lt_iff positive, Nat.cast_pow, Nat.cast_ofNat, ← zpow_natCast, ← two_zpow_add]
  exact bound

theorem le_coefficientFor (some : 0 < num) (positive : 0 < den) (above : f.minExponent < f.exponentFor num den)
    (precise : 0 < f.precision) : 2 ^ (f.precision - 1) ≤ f.coefficientFor num den := by
  obtain ⟨-, -, least | bound⟩ := f.exponentFor_spec some positive
  · omega
  · refine le_roundHalfEven (unscale_pos positive ..) (not_lt.mp ?_)
    rw [unscale_lt_iff positive, Nat.cast_pow, Nat.cast_ofNat, ← zpow_natCast, ← two_zpow_add, not_lt]
    refine le_of_eq_of_le ?_ bound
    congr 1
    omega

theorem roundRatio_mono {num' : ℕ} (precise : 0 < f.precision) (positive : 0 < den) (order : num ≤ num') :
    f.roundRatio num den ≤ f.roundRatio num' den := by
  rcases Nat.eq_zero_or_pos num with rfl | some
  · exact Nat.zero_le _
  have some' := some.trans_le order
  obtain ⟨least, -, low⟩ := f.exponentFor_spec some positive
  obtain ⟨least', high, -⟩ := f.exponentFor_spec some' positive
  have denominator : (0 : ℚ) < den := Nat.cast_pos.mpr positive
  have values : (num / den : ℚ) ≤ num' / den := div_le_div_of_nonneg_right (Nat.cast_le.mpr order) denominator.le
  have exponents : f.exponentFor num den ≤ f.exponentFor num' den := by
    rcases low with bottom | low
    · omega
    · have := two_zpow_lt_iff.mp ((low.trans values).trans_lt high)
      omega
  rw [roundRatio_eq f some, roundRatio_eq f some']
  refine min_le_min (Nat.le_refl _) ?_
  dsimp only
  rw [Nat.shiftLeft_eq, Nat.shiftLeft_eq]
  rcases Int.lt_or_eq_of_le exponents with less | same
  · have carried := f.coefficientFor_le some positive
    have normal := f.le_coefficientFor some' positive (Int.lt_of_le_of_lt least less) precise
    obtain ⟨p, digits⟩ := Nat.exists_eq_succ_of_ne_zero precise.ne'
    rw [digits, Nat.pow_succ] at carried
    rw [digits] at normal ⊢
    have step : ((f.exponentFor num den - f.minExponent).toNat + 1) * 2 ^ p ≤
        (f.exponentFor num' den - f.minExponent).toNat * 2 ^ p := Nat.mul_le_mul_right _ (by omega)
    rw [Nat.succ_mul] at step
    change _ * 2 ^ p + _ ≤ _ * 2 ^ p + _
    change 2 ^ p ≤ _ at normal
    omega
  · unfold coefficientFor
    rw [← same]
    obtain ⟨numerators, denominators⟩ := unscale_mono order den (f.exponentFor num den)
    rw [← denominators]
    exact Nat.add_le_add_left (roundHalfEven_mono numerators) _

/-- A magnitude counts the coefficients of all exponents below its own. -/
structure Decoded (magnitude : ℕ) (s : Scaled) (k : ℕ) : Prop where
  exponent : s.exponent = f.minExponent + k
  magnitude : magnitude = k * 2 ^ (f.precision - 1) + s.coefficient
  small : s.coefficient < 2 * 2 ^ (f.precision - 1)
  normal : k = 0 ∨ 2 ^ (f.precision - 1) ≤ s.coefficient

theorem decoded (magnitude : ℕ) : ∃ k, f.Decoded magnitude (f.decode magnitude) k := by
  have whole := Nat.div_add_mod magnitude (2 ^ (f.precision - 1))
  have rest := Nat.mod_lt magnitude (Nat.two_pow_pos (f.precision - 1))
  unfold decode
  simp only [Nat.shiftLeft_eq, Nat.one_mul]
  split
  · next none =>
    rw [none, Nat.mul_zero] at whole
    refine ⟨0, (Int.add_zero _).symm, ?_, ?_, .inl rfl⟩ <;> dsimp only <;> omega
  · next some =>
    obtain ⟨k, above⟩ := Nat.exists_eq_succ_of_ne_zero some
    refine ⟨k, ?_, ?_, ?_, .inr ?_⟩
    · dsimp only
      omega
    · rw [above, Nat.mul_succ, Nat.mul_comm] at whole
      dsimp only
      omega
    · dsimp only
      omega
    · exact Nat.le_add_right _ _

theorem value_decode_mono {m n : ℕ} (order : m ≤ n) : (f.decode m).value ≤ (f.decode n).value := by
  obtain ⟨j, exponentM, magnitudeM, smallM, normalM⟩ := f.decoded m
  obtain ⟨k, exponentN, magnitudeN, smallN, normalN⟩ := f.decoded n
  unfold Scaled.value
  rw [exponentM, exponentN]
  generalize (f.decode m).coefficient = c at *
  generalize (f.decode n).coefficient = d at *
  generalize 2 ^ (f.precision - 1) = half at *
  rcases Nat.lt_trichotomy j k with less | rfl | greater
  · -- A greater exponent makes up for a smaller coefficient.
    have bound : (c : ℚ) ≤ d * 2 ^ (1 : ℤ) := by
      exact_mod_cast (by omega : c ≤ d * 2)
    calc
      (c : ℚ) * 2 ^ (f.minExponent + j) ≤ d * 2 ^ (1 : ℤ) * 2 ^ (f.minExponent + j) :=
        mul_le_mul_of_nonneg_right bound (two_zpow_pos _).le
      _ = d * 2 ^ (1 + (f.minExponent + j)) := by rw [two_zpow_add 1, mul_assoc]
      _ ≤ d * 2 ^ (f.minExponent + k) := mul_le_mul_of_nonneg_left (two_zpow_le (by omega)) (Nat.cast_nonneg d)
  · have coefficients : (c : ℚ) ≤ d := Nat.cast_le.mpr (by omega)
    exact mul_le_mul_of_nonneg_right coefficients (two_zpow_pos _).le
  · have step : (k + 1) * half ≤ j * half := Nat.mul_le_mul_right half greater
    rw [Nat.succ_mul] at step
    omega

/-- The least number that rounds to the infinite double. -/
def overflow : ℚ :=
  (2 ^ 54 - 1) * 2 ^ (970 : ℤ)

theorem overflow_lt : overflow < 2 ^ (1024 : ℤ) := by
  rw [show (1024 : ℤ) = 54 + 970 by rfl, two_zpow_add]
  exact mul_lt_mul_of_pos_right (by norm_num) (two_zpow_pos 970)

/-- Whether a product of doubles is below the bound, in whole numbers. -/
def Below (x y : Scaled) : Prop :=
  x.coefficient * y.coefficient * 2 ^ (x.exponent + y.exponent + 2148).toNat < 18014398509481983 * 2 ^ 3118

instance (x y : Scaled) : Decidable (Below x y) :=
  inferInstanceAs (Decidable (_ < _))

theorem Below.value_lt {x y : Scaled} (below : Below x y) (leastX : -1074 ≤ x.exponent) (leastY : -1074 ≤ y.exponent) :
    x.value * y.value < overflow := by
  obtain ⟨k, shift⟩ := Int.eq_ofNat_of_zero_le (show 0 ≤ x.exponent + y.exponent + 2148 by omega)
  have exact : (x.coefficient * y.coefficient * 2 ^ (k : ℤ) : ℚ) < (2 ^ 54 - 1) * 2 ^ (3118 : ℤ) := by
    rw [Below, shift, Int.toNat_natCast] at below
    have cast : ((x.coefficient * y.coefficient * 2 ^ k : ℕ) : ℚ) < (18014398509481983 * 2 ^ 3118 : ℕ) :=
      Nat.cast_lt.mpr below
    rw [Nat.cast_mul, Nat.cast_mul, Nat.cast_mul, Nat.cast_pow, Nat.cast_pow, Nat.cast_ofNat, Nat.cast_ofNat] at cast
    refine cast.trans_eq ?_
    norm_num
  calc
    x.value * y.value = x.coefficient * y.coefficient * 2 ^ (k : ℤ) * 2 ^ (-2148 : ℤ) := by
      rw [Scaled.value, Scaled.value, mul_mul_mul_comm, mul_assoc _ (2 ^ _) (2 ^ _), ← two_zpow_add, ← two_zpow_add]
      congr 2
      omega
    _ < (2 ^ 54 - 1) * 2 ^ (3118 : ℤ) * 2 ^ (-2148 : ℤ) := mul_lt_mul_of_pos_right exact (two_zpow_pos _)
    _ = overflow := by
      rw [mul_assoc, ← two_zpow_add]
      rfl

@[simp] theorem precision_double : double.precision = 53 := rfl

@[simp] theorem minExponent_double : double.minExponent = -1074 := rfl

theorem infinity_double : double.infinity = 2047 * 2 ^ 52 := rfl

/-- At the greatest exponent the coefficient stays within its bits. -/
theorem coefficientFor_lt (positive : 0 < den) (bound : (num / den : ℚ) < overflow)
    (last : double.exponentFor num den = 971) : double.coefficientFor num den < 2 ^ 53 := by
  unfold coefficientFor
  rw [last]
  have denominator : (0 : ℚ) < (unscale num den 971).2 := Nat.cast_pos.mpr (unscale_pos positive num 971)
  have ratio : ((unscale num den 971).1 : ℚ) / (unscale num den 971).2 < (2 ^ 54 - 1) / 2 := by
    rw [unscale_eq, div_lt_iff₀ (two_zpow_pos 971)]
    refine bound.trans_eq ?_
    rw [overflow, show (971 : ℤ) = 1 + 970 by rfl, two_zpow_add]
    ring
  rw [div_lt_iff₀ denominator, div_mul_eq_mul_div, lt_div_iff₀ two_pos, sub_mul, lt_sub_iff_add_lt] at ratio
  have whole : (unscale num den 971).1 * 2 + 1 * (unscale num den 971).2 < 2 ^ 54 * (unscale num den 971).2 := by
    exact_mod_cast ratio
  refine roundHalfEven_lt (unscale_pos positive ..) ?_
  omega

theorem roundRatio_lt_infinity (positive : 0 < den) (bound : (num / den : ℚ) < overflow) :
    double.roundRatio num den < double.infinity := by
  rcases Nat.eq_zero_or_pos num with rfl | some
  · rw [roundRatio, if_pos rfl, infinity_double]
    norm_num
  obtain ⟨least, -, low⟩ := double.exponentFor_spec some positive
  have coefficient := double.coefficientFor_le some positive
  rw [precision_double] at low coefficient
  rw [minExponent_double] at least low
  have top : double.exponentFor num den ≤ 971 := by
    rcases low with bottom | low
    · omega
    · have := two_zpow_lt_iff.mp (low.trans_lt (bound.trans overflow_lt))
      omega
  rw [roundRatio_eq _ some]
  refine (Nat.min_le_right _ _).trans_lt ?_
  rw [infinity_double, Nat.shiftLeft_eq, precision_double, minExponent_double]
  dsimp only
  rcases Int.lt_or_eq_of_le top with below | last
  · omega
  · have full := coefficientFor_lt positive bound last
    omega

theorem roundDecimal_lt_infinity {digits : ℕ} {exponent : ℤ} (bound : (digits * 10 ^ exponent : ℚ) < overflow) :
    double.roundDecimal digits exponent < double.infinity := by
  have zero : 0 < double.infinity := by
    rw [infinity_double]
    norm_num
  unfold roundDecimal
  dsimp only
  split
  · exact zero
  · next some =>
    split
    · next far =>
      -- So large an exponent is beyond the bound with any digit.
      have digit : (1 : ℚ) ≤ digits := Nat.one_le_cast.mpr (Nat.pos_of_ne_zero some)
      have large : (2 : ℚ) ^ (1024 : ℤ) ≤ 10 ^ exponent :=
        (two_zpow_le (by change (2048 : ℤ) < exponent at far; omega)).trans
          (zpow_le_zpow_left₀ (by change (2048 : ℤ) < exponent at far; omega) (by norm_num) (by norm_num))
      have power : (0 : ℚ) ≤ 10 ^ exponent := (zpow_pos (by norm_num) exponent).le
      exact absurd (large.trans (le_mul_of_one_le_left power digit)) (not_le.mpr (bound.trans overflow_lt))
    · split
      · exact zero
      · split
        · next up =>
          obtain ⟨k, rfl⟩ := Int.eq_ofNat_of_zero_le up
          refine roundRatio_lt_infinity Nat.one_pos (lt_of_eq_of_lt ?_ bound)
          simp
        · next down =>
          obtain ⟨k, rfl⟩ := Int.exists_eq_neg_ofNat (Int.le_of_lt (Int.not_le.mp down))
          refine roundRatio_lt_infinity (Nat.pow_pos (by norm_num)) (lt_of_eq_of_lt ?_ bound)
          simp [div_eq_mul_inv]

end BinaryFormat

end Onboard
