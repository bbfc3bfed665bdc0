import Mathlib
import Onboard.Proofs.Number.Difference

/-! Operations on doubles of either sign. The double is finite exactly if the exact result lies below the overflow, and
then it is within half a unit of its last bit of it; this is all that an argument about a chain of operations needs. A
part of a greater double is less than the whole by one part in `2 ^ 53`, also after rounding. -/

namespace Onboard

namespace BinaryFormat
variable {num den : ℕ}

theorem roundRatio_le_infinity (f : BinaryFormat) (num den : ℕ) : f.roundRatio num den ≤ f.infinity := by
  rcases Nat.eq_zero_or_pos num with rfl | some
  · exact Nat.zero_le _
  · rw [f.roundRatio_eq some]
    exact Nat.min_le_left _ _

theorem natCast_overflow : (((2 ^ 54 - 1) * 2 ^ 970 : ℕ) : ℚ) = overflow := by
  rw [overflow, show (970 : ℤ) = (970 : ℕ) by rfl, zpow_natCast, Nat.cast_mul, Nat.cast_pow, Nat.cast_ofNat]
  norm_num

/-- The coefficient is halfway to the next one, which is even and carries to the infinite magnitude. -/
theorem roundRatio_overflow (positive : 0 < den) :
    double.roundRatio ((2 ^ 54 - 1) * 2 ^ 970 * den) den = double.infinity := by
  have some : 0 < (2 ^ 54 - 1) * 2 ^ 970 * den := by positivity
  have unit := two_zpow_pos 971
  have value : (((2 ^ 54 - 1) * 2 ^ 970 * den : ℕ) / den : ℚ) = overflow := by
    rw [Nat.cast_mul, natCast_overflow, mul_div_cancel_right₀ _ (Nat.cast_pos.mpr positive).ne']
  have half : overflow = (2 ^ 53 - 1 / 2) * 2 ^ (971 : ℤ) := by
    rw [overflow, show (971 : ℤ) = 970 + 1 by rfl, zpow_add_one₀ two_ne_zero]
    ring
  have exponent : double.exponentFor ((2 ^ 54 - 1) * 2 ^ 970 * den) den = 971 := by
    refine exponentFor_eq some positive (by decide) (value.trans_lt overflow_lt) (.inr ?_)
    rw [value, half, precision_double, show ((53 : ℕ) + 971 - 1 : ℤ) = (52 : ℕ) + 971 by rfl, two_zpow_add,
      zpow_natCast]
    exact mul_le_mul_of_nonneg_right (by norm_num) unit.le
  have coefficient : double.coefficientFor ((2 ^ 54 - 1) * 2 ^ 970 * den) den = 2 ^ 53 := by
    refine coefficientFor_eq positive exponent ?_ ?_ (fun odd => absurd odd (by decide)) <;>
      rw [value, half, Nat.cast_pow, Nat.cast_ofNat]
    exact mul_le_mul_of_nonneg_right (by norm_num) unit.le
  rw [double.roundRatio_eq some, exponent, coefficient]
  exact encode_eq_infinity (k := 2045) (by decide) (by decide)

theorem roundRatio_lt_infinity_iff (positive : 0 < den) :
    double.roundRatio num den < double.infinity ↔ (num / den : ℚ) < overflow := by
  refine ⟨fun finite => ?_, roundRatio_lt_infinity positive⟩
  by_contra large
  have order : (2 ^ 54 - 1) * 2 ^ 970 * den ≤ num := by
    rw [not_lt, le_div_iff₀ (Nat.cast_pos.mpr positive), ← natCast_overflow] at large
    exact_mod_cast large
  have top := double.roundRatio_mono (by decide) positive order
  rw [roundRatio_overflow positive] at top
  exact absurd finite (Nat.not_lt.mpr top)

section Finite
variable (some : 0 < num) (positive : 0 < den) (finite : double.roundRatio num den < double.infinity)
include some positive finite

theorem exponentFor_le_of_finite : double.exponentFor num den ≤ 971 := by
  by_contra above
  have full : 2 ^ 52 ≤ double.coefficientFor num den :=
    double.le_coefficientFor some positive (by rw [minExponent_double]; omega) (by decide)
  rw [double.roundRatio_eq some, encode, infinity_double, Nat.shiftLeft_eq, precision_double,
    minExponent_double] at finite
  dsimp only at finite
  omega

/-- The error of one rounding: relative to the number, or half the least double, and never beyond half the greatest
unit. -/
theorem abs_error_le : 2 ^ 53 * |(double.decode (double.roundRatio num den)).value - num / den| ≤
      (num / den : ℚ) + 2 ^ (-1022 : ℤ) ∧
    |(double.decode (double.roundRatio num den)).value - num / den| ≤ 2 ^ (970 : ℤ) := by
  obtain ⟨-, -, low⟩ := double.exponentFor_spec some positive
  have top := exponentFor_le_of_finite some positive finite
  have half := double.abs_coefficientFor_sub_le positive num
  rw [value_roundRatio (by decide) some positive finite]
  rw [precision_double, minExponent_double] at low
  generalize |(double.coefficientFor num den * 2 ^ double.exponentFor num den - num / den : ℚ)| = error at *
  generalize double.exponentFor num den = e at *
  have fraction : (0 : ℚ) ≤ num / den := by positivity
  constructor
  · rcases low with rfl | low
    · have least : (2 : ℚ) ^ (-1022 : ℤ) = 2 ^ 52 * 2 ^ (-1074 : ℤ) := by
        rw [show (-1022 : ℤ) = (52 : ℕ) + -1074 by rfl, two_zpow_add, zpow_natCast]
      linarith
    · rw [show ((53 : ℕ) + e - 1 : ℤ) = (52 : ℕ) + e by omega, two_zpow_add, zpow_natCast] at low
      have some := two_zpow_pos (-1022)
      generalize (2 : ℚ) ^ e = unit at *
      linarith
  · have greatest := half.trans (two_zpow_le top)
    rw [show (971 : ℤ) = 970 + 1 by rfl, zpow_add_one₀ two_ne_zero] at greatest
    linarith

end Finite

/-- A magnitude below another is below it by one part in `2 ^ 53` at least. -/
theorem value_decode_of_lt {m n : ℕ} (less : m < n) :
    2 ^ 53 * (double.decode m).value ≤ (2 ^ 53 - 1) * (double.decode n).value := by
  obtain ⟨k, exponent, same, small, normal⟩ := double.decoded n
  have upTo : (double.decode m).value ≤ (double.decode (n - 1)).value := double.value_decode_mono (by omega)
  have valueN : (double.decode n).value = (double.decode n).coefficient * 2 ^ (-1074 + k : ℤ) := by
    rw [Scaled.value, exponent, minExponent_double]
  rw [valueN]
  rw [precision_double] at same small normal
  generalize (double.decode n).coefficient = c at *
  have unit := two_zpow_pos (-1074 + k)
  by_cases carry : c = 2 ^ 52 ∧ k ≠ 0
  · -- Below a power of two the next magnitude is half a unit away.
    obtain ⟨rfl, some⟩ := carry
    obtain ⟨j, rfl⟩ := Nat.exists_eq_succ_of_ne_zero some
    have value : (double.decode (n - 1)).value = (2 ^ 53 - 1 : ℕ) * 2 ^ (double.minExponent + j) :=
      value_decode (by decide) (by rw [precision_double]; omega) (by decide) (.inr (by decide))
    have unitJ : (2 : ℚ) ^ (-1074 + (j.succ : ℕ) : ℤ) = 2 * 2 ^ (-1074 + j : ℤ) := by
      rw [← zpow_one_add₀ two_ne_zero]
      congr 1
      push_cast
      ring
    rw [minExponent_double, Nat.cast_sub (by decide)] at value
    rw [unitJ]
    push_cast at value ⊢
    linarith
  · have value : (double.decode (n - 1)).value = (c - 1 : ℕ) * 2 ^ (double.minExponent + k) :=
      value_decode (by decide) (by rw [precision_double]; omega) (by rw [precision_double]; omega)
        (by rw [precision_double]; omega)
    have some : 1 ≤ c := by omega
    have few : (c : ℚ) ≤ 2 ^ 53 := by exact_mod_cast (by omega : c ≤ 2 ^ 53)
    rw [minExponent_double, Nat.cast_sub some, Nat.cast_one] at value
    nlinarith

end BinaryFormat

namespace Double
open Float.Model (Format UnpackedFloat)
open Float.Model.UnpackedFloat
open BinaryFormat (double overflow)
variable {x y z : Float} {q : ℚ}

/-- The value with its sign; meant for finite numbers. -/
def toRat (x : Float) : ℚ :=
  if isNegative x then -(scaled x).value else (scaled x).value

theorem scaled_value_nonneg (x : Float) : 0 ≤ (scaled x).value := by
  unfold Scaled.value
  positivity

theorem abs_toRat (x : Float) : |toRat x| = (scaled x).value := by
  unfold toRat
  split
  · rw [abs_neg, abs_of_nonneg (scaled_value_nonneg x)]
  · rw [abs_of_nonneg (scaled_value_nonneg x)]

theorem toRat_of_nonneg (sign : isNegative x = false) : toRat x = (scaled x).value := by
  rw [toRat, sign, if_neg Bool.false_ne_true]

theorem toRat_pos (positive : 0.0 < x) : 0 < toRat x := by
  rw [toRat_of_nonneg (parts_of_pos positive).1]
  exact value_pos positive

/-- The greatest double is half a unit below the overflow. -/
theorem abs_toRat_le (finite : x.isFinite = true) : |toRat x| ≤ overflow - 2 ^ (970 : ℤ) := by
  obtain ⟨few, -, top, -⟩ := scaled_spec (isFinite_iff.mp finite)
  have coefficient : ((scaled x).coefficient : ℚ) ≤ 2 ^ 53 - 1 := by
    rw [le_sub_iff_add_le]
    exact_mod_cast few
  rw [abs_toRat, Scaled.value, overflow]
  calc
    ((scaled x).coefficient * 2 ^ (scaled x).exponent : ℚ) ≤ (2 ^ 53 - 1) * 2 ^ (971 : ℤ) :=
      mul_le_mul coefficient (two_zpow_le top) (two_zpow_pos _).le (by norm_num)
    _ = (2 ^ 54 - 1) * 2 ^ (970 : ℤ) - 2 ^ (970 : ℤ) := by
      rw [show (971 : ℤ) = 970 + 1 by rfl, zpow_add_one₀ two_ne_zero]
      ring

/-- What is known of a double that an exact number was rounded to. -/
structure Approximates (z : Float) (q : ℚ) : Prop where
  number : z.isNaN = false
  finite : z.isFinite = true ↔ |q| < overflow
  near : z.isFinite = true → 2 ^ 53 * |toRat z - q| ≤ |q| + 2 ^ (-1022 : ℤ)
  gap : z.isFinite = true → |toRat z - q| ≤ 2 ^ (970 : ℤ)

theorem approximates_toRat (finite : x.isFinite = true) : Approximates x (toRat x) := by
  have gap := (two_zpow_pos 970).le
  have near := (add_pos_of_nonneg_of_pos (abs_nonneg (toRat x)) (two_zpow_pos (-1022))).le
  have small := (abs_toRat_le finite).trans_lt (sub_lt_self _ (two_zpow_pos 970))
  refine ⟨number_of_isFinite finite, iff_of_true finite small, fun _ => ?_, fun _ => ?_⟩ <;> rw [sub_self, abs_zero]
  · rwa [mul_zero]
  · exact gap

theorem approximates_of_nearest {num den : ℕ} (some : 0 < num) (positive : 0 < den)
    (nearest : magnitude z = double.roundRatio num den)
    (value : q = if isNegative z then -(num / den : ℚ) else num / den) : Approximates z q := by
  have fraction : (0 : ℚ) ≤ num / den := by positivity
  have size : |q| = num / den := by
    rw [value]
    split
    · rw [abs_neg, abs_of_nonneg fraction]
    · rw [abs_of_nonneg fraction]
  have error : |toRat z - q| = |(double.decode (double.roundRatio num den)).value - num / den| := by
    rw [value, toRat, scaled, nearest]
    split
    · rw [neg_sub_neg, abs_sub_comm]
    · rfl
  refine ⟨?_, ?_, fun finite => ?_, fun finite => ?_⟩
  · rw [number_iff, nearest]
    exact double.roundRatio_le_infinity num den
  · rw [finite_iff, nearest, size]
    exact BinaryFormat.roundRatio_lt_infinity_iff positive
  · rw [finite_iff, nearest] at finite
    rw [error, size]
    exact (BinaryFormat.abs_error_le some positive finite).1
  · rw [finite_iff, nearest] at finite
    rw [error]
    exact (BinaryFormat.abs_error_le some positive finite).2

/-- The exact value of an unpacked number. -/
def exact : UnpackedFloat → ℚ
  | .finite sign coefficient exponent _ => (sign.apply coefficient : ℤ) * 2 ^ exponent
  | .infinity _ | .zero _ | .notANumber => 0

theorem exact_unpack (finite : x.isFinite = true) : exact x.toModel.unpack = toRat x := by
  obtain ⟨zero, unpacked⟩ | ⟨positive, unpacked⟩ := unpack_scaled (isFinite_iff.mp finite)
  · rw [unpacked, toRat, Scaled.value, zero, Nat.cast_zero, zero_mul, neg_zero, ite_self]
    rfl
  · rw [unpacked, toRat, Scaled.value, signOf]
    cases isNegative x <;> simp [exact, Sign.apply]

theorem isFinite_zero (sign : Sign) : (⟨.pack (.zero sign)⟩ : Float).isFinite = true := by
  cases sign <;> decide

theorem toRat_zero (sign : Sign) : toRat ⟨.pack (.zero sign)⟩ = 0 := by
  rw [← exact_unpack (isFinite_zero sign)]
  cases sign <;> rfl

theorem approximates_zero (sign : Sign) : Approximates ⟨.pack (.zero sign)⟩ 0 := by
  have approximates := approximates_toRat (isFinite_zero sign)
  rwa [toRat_zero] at approximates

theorem isNegative_roundExact (sign : Sign) {m : ℕ} (e : ℤ) (some : 0 < m) :
    isNegative ⟨.pack (UnpackedFloat.round Format.binary64 sign m e)⟩ = (sign == .negative) := by
  obtain ⟨shift, rounded, -⟩ := round_eq sign e some
  rw [rounded, isNegative_round]

theorem approximates_round (sign : Sign) {m : ℕ} (e : ℤ) (some : 0 < m) :
    Approximates ⟨.pack (UnpackedFloat.round Format.binary64 sign m e)⟩ ((sign.apply m : ℤ) * 2 ^ e) := by
  have positive : (0 : ℚ) < m * 2 ^ e := mul_pos (Nat.cast_pos.mpr some) (two_zpow_pos e)
  obtain ⟨num, den, someNum, someDen, value⟩ := exists_fraction positive
  refine approximates_of_nearest someNum someDen (magnitude_round_exact sign some someNum someDen value) ?_
  rw [isNegative_roundExact sign e some, value]
  cases sign <;> simp [Sign.apply]

theorem approximates_normalize (m e : ℤ) :
    Approximates ⟨.pack (normalize Format.binary64 m e .positive)⟩ (m * 2 ^ e) := by
  unfold UnpackedFloat.normalize
  split
  · next less =>
    have below := Int.compare_eq_lt.mp less
    have same : Sign.negative.apply ((-m).toNat : ℤ) = m := by
      rw [Sign.apply, Int.toNat_of_nonneg (by omega), neg_neg]
    have approximates := approximates_round .negative e (show 0 < (-m).toNat by omega)
    rwa [same] at approximates
  · next equal =>
    rw [Int.compare_eq_eq.mp equal, Int.cast_zero, zero_mul]
    exact approximates_zero .positive
  · next greater =>
    have above := Int.compare_eq_gt.mp greater
    have same : Sign.positive.apply (m.toNat : ℤ) = m := Int.toNat_of_nonneg above.le
    have approximates := approximates_round .positive e (show 0 < m.toNat by omega)
    rwa [same] at approximates

theorem pack_unpack (finite : x.isFinite = true) : (⟨.pack x.toModel.unpack⟩ : Float) = x := by
  have unpacked := unpacks x
  have fraction : magnitude x % 2 ^ 52 < 2 ^ 52 := Nat.mod_lt _ (by decide)
  rw [isFinite_iff, level] at finite
  refine eq_of_parts ?_ ?_
  · rw [unpacked.isNegative_eq finite, signOf]
    cases isNegative x <;> rfl
  · rw [unpacked.magnitude_eq fraction finite]
    omega

theorem toRat_of_coefficient (zero : (scaled x).coefficient = 0) : toRat x = 0 := by
  rw [toRat, Scaled.value, zero, Nat.cast_zero, zero_mul, neg_zero, ite_self]

/-- A shift down to a smaller exponent keeps the value. -/
theorem apply_aligned (sign : Sign) (m : ℕ) {d e : ℤ} (low : e ≤ d) :
    ((sign.apply ((m <<< (d - e).toNat : ℕ) : ℤ) : ℤ) * 2 ^ e : ℚ) = (sign.apply m : ℤ) * 2 ^ d := by
  have aligned := value_aligned (s := ⟨m, d⟩) low
  cases sign with
  | positive => exact aligned
  | negative =>
    simp only [Sign.apply, Int.cast_neg, neg_mul, neg_inj]
    exact aligned

/-- With both mantissas at the smaller exponent the sum is exact, and then rounded. -/
theorem approximates_add (finiteX : x.isFinite = true) (finiteY : y.isFinite = true) :
    Approximates (x + y) (toRat x + toRat y) := by
  have sum : x + y = ⟨.pack (add Format.binary64 x.toModel.unpack y.toModel.unpack)⟩ := rfl
  obtain ⟨zeroX, unpackX⟩ | ⟨someX, unpackX⟩ := unpack_scaled (isFinite_iff.mp finiteX) <;>
    obtain ⟨zeroY, unpackY⟩ | ⟨someY, unpackY⟩ := unpack_scaled (isFinite_iff.mp finiteY)
  · rw [toRat_of_coefficient zeroX, toRat_of_coefficient zeroY, add_zero, sum, unpackX, unpackY]
    simp only [add]
    split <;> exact approximates_zero _
  · have same : x + y = y := by
      rw [sum, unpackX]
      refine Eq.trans ?_ (pack_unpack finiteY)
      rw [unpackY]
      rfl
    rw [same, toRat_of_coefficient zeroX, zero_add]
    exact approximates_toRat finiteY
  · have same : x + y = x := by
      rw [sum, unpackY]
      refine Eq.trans ?_ (pack_unpack finiteX)
      rw [unpackX]
      rfl
    rw [same, toRat_of_coefficient zeroY, add_zero]
    exact approximates_toRat finiteX
  · rw [sum, ← exact_unpack finiteX, ← exact_unpack finiteY, unpackX, unpackY]
    generalize signOf x = s at *
    generalize signOf y = t at *
    generalize (scaled x).coefficient = m at *
    generalize (scaled y).coefficient = n at *
    generalize (scaled x).exponent = d at *
    generalize (scaled y).exponent = e at *
    have normalized := approximates_normalize
      (s.apply ((m <<< (d - Min.min d e).toNat : ℕ) : ℤ) + t.apply ((n <<< (e - Min.min d e).toNat : ℕ) : ℤ))
      (Min.min d e)
    rw [Int.cast_add, add_mul, apply_aligned s m (Int.min_le_left ..),
      apply_aligned t n (Int.min_le_right ..)] at normalized
    exact normalized

theorem unpack_neg (finite : x.isFinite = true) : (-x).toModel.unpack = x.toModel.unpack.neg := by
  obtain ⟨magnitudes, signs⟩ := neg_parts finite
  have scales : scaled (-x) = scaled x := by rw [scaled, magnitudes, scaled]
  have opposite : signOf (-x) = -signOf x := by
    rw [signOf, signs, signOf]
    cases isNegative x <;> rfl
  have finite' : (-x).isFinite = true := by rwa [finite_iff, magnitudes, ← finite_iff]
  obtain ⟨zero, unpacked⟩ | ⟨some, unpacked⟩ := unpack_scaled (isFinite_iff.mp finite) <;>
    obtain ⟨zero', unpacked'⟩ | ⟨some', unpacked'⟩ := unpack_scaled (isFinite_iff.mp finite')
  · rw [unpacked, unpacked', opposite]
    rfl
  · rw [scales] at some'
    omega
  · rw [scales] at zero'
    omega
  · rw [unpacked, unpacked']
    simp only [scales, opposite]
    rfl

theorem toRat_neg (finite : x.isFinite = true) : toRat (-x) = -toRat x := by
  obtain ⟨magnitudes, signs⟩ := neg_parts finite
  rw [toRat, toRat, signs, scaled, scaled, magnitudes]
  cases isNegative x <;> simp

theorem sub_unpacked (u v : UnpackedFloat) : sub Format.binary64 u v = add Format.binary64 u v.neg := by
  cases u <;> cases v <;> try rfl
  case finite.finite s m d _ t n e _ =>
    have opposite : s.apply ((m <<< (d - Min.min d e).toNat : ℕ) : ℤ) -
        t.apply ((n <<< (e - Min.min d e).toNat : ℕ) : ℤ) =
          s.apply ((m <<< (d - Min.min d e).toNat : ℕ) : ℤ) +
            (-t).apply ((n <<< (e - Min.min d e).toNat : ℕ) : ℤ) := by
      cases t
      · exact sub_neg_eq_add _ _
      · exact sub_eq_add_neg _ _
    exact congrArg (normalize Format.binary64 · (Min.min d e) .positive) opposite

theorem approximates_sub (finiteX : x.isFinite = true) (finiteY : y.isFinite = true) :
    Approximates (x - y) (toRat x - toRat y) := by
  have finite : (-y).isFinite = true := by rwa [finite_iff, (neg_parts finiteY).1, ← finite_iff]
  have same : x - y = x + -y := by
    change (⟨.pack (sub Format.binary64 x.toModel.unpack y.toModel.unpack)⟩ : Float) =
      ⟨.pack (add Format.binary64 x.toModel.unpack (-y).toModel.unpack)⟩
    rw [unpack_neg finiteY, sub_unpacked]
  rw [same, sub_eq_add_neg, ← toRat_neg finiteY]
  exact approximates_add finiteX finite

theorem approximates_mul (finiteX : x.isFinite = true) (finiteY : y.isFinite = true) :
    Approximates (x * y) (toRat x * toRat y) := by
  have product : x * y = ⟨.pack (mul Format.binary64 x.toModel.unpack y.toModel.unpack)⟩ := rfl
  obtain ⟨zeroX, unpackX⟩ | ⟨someX, unpackX⟩ := unpack_scaled (isFinite_iff.mp finiteX)
  · rw [toRat_of_coefficient zeroX, zero_mul, product, unpackX]
    obtain ⟨_, unpackY⟩ | ⟨_, unpackY⟩ := unpack_scaled (isFinite_iff.mp finiteY) <;> rw [unpackY] <;>
      exact approximates_zero _
  obtain ⟨zeroY, unpackY⟩ | ⟨someY, unpackY⟩ := unpack_scaled (isFinite_iff.mp finiteY)
  · rw [toRat_of_coefficient zeroY, mul_zero, product, unpackX, unpackY]
    exact approximates_zero _
  have positive : 0 < (scaled x).value * (scaled y).value :=
    mul_pos (mul_pos (Nat.cast_pos.mpr someX) (two_zpow_pos _)) (mul_pos (Nat.cast_pos.mpr someY) (two_zpow_pos _))
  obtain ⟨num, den, some, divisor, value⟩ := exists_fraction positive
  obtain ⟨nearest, sign⟩ := mul_nearest finiteX finiteY some divisor value
  refine approximates_of_nearest some divisor nearest ?_
  rw [value, sign, toRat, toRat]
  cases isNegative x <;> cases isNegative y <;> simp

theorem mul_parts (positiveX : 0.0 < x) (positiveY : 0.0 < y) (finiteX : x.isFinite = true)
    (finiteY : y.isFinite = true) : (x * y).isNaN = false ∧ isNegative (x * y) = false := by
  obtain ⟨num, den, some, positive, exact⟩ := exists_fraction (mul_pos (value_pos positiveX) (value_pos positiveY))
  obtain ⟨-, sign⟩ := mul_nearest finiteX finiteY some positive exact
  refine ⟨(approximates_mul finiteX finiteY).number, ?_⟩
  rw [sign, (parts_of_pos positiveX).1, (parts_of_pos positiveY).1]
  rfl

/-- A double from nought to the greatest one below one. -/
structure IsShare (s : Float) : Prop where
  finite : s.isFinite = true
  nonneg : 0 ≤ toRat s
  below : 2 ^ 53 * toRat s ≤ 2 ^ 53 - 1

theorem IsShare.le_one {s : Float} (share : IsShare s) : toRat s ≤ 1 := by
  have below := share.below
  linarith

theorem isShare_zero {sign : Sign} : IsShare ⟨.pack (.zero sign)⟩ := by
  refine ⟨isFinite_zero sign, (toRat_zero sign).ge, ?_⟩
  rw [toRat_zero]
  norm_num

theorem value_one : (scaled 1.0).value = 1 := by
  rw [show scaled 1.0 = ⟨2 ^ 52, -52⟩ by decide, Scaled.value]
  norm_num

theorem unpack_infinite (number : x.isNaN = false) (infinite : x.isFinite = false) :
    x.toModel.unpack = .infinity (signOf x) := by
  have unpacked := unpacks x
  change x.toModel.unpack.isNaN = false at number
  change x.toModel.unpack.isFinite = false at infinite
  generalize x.toModel.unpack = u at *
  cases unpacked <;> first | contradiction | rfl

theorem div_infinite (finite : x.isFinite = true) (number : y.isNaN = false) (infinite : y.isFinite = false) :
    ∃ sign, x / y = ⟨.pack (.zero sign)⟩ := by
  have quotient : x / y = ⟨.pack (div Format.binary64 x.toModel.unpack y.toModel.unpack)⟩ := rfl
  rw [quotient, unpack_infinite number infinite]
  obtain ⟨_, unpackX⟩ | ⟨_, unpackX⟩ := unpack_scaled (isFinite_iff.mp finite) <;> rw [unpackX] <;> exact ⟨_, rfl⟩

theorem one_lt_overflow : 1 < overflow := by
  have unit : (1 : ℚ) ≤ 2 ^ (970 : ℤ) := one_le_zpow₀ (by norm_num) (by decide)
  rw [overflow]
  generalize (2 : ℚ) ^ (970 : ℤ) = unit at *
  linarith

theorem Approximates.isShare (approximates : Approximates z q) (sign : isNegative z = false) (nonneg : 0 ≤ q)
    (below : 2 ^ 53 * q ≤ 2 ^ 53 - 1) : IsShare z := by
  have size := abs_of_nonneg nonneg
  have finite := approximates.finite.mpr (by linarith [one_lt_overflow])
  have near := approximates.near finite
  have value := toRat_of_nonneg sign
  have tiny : (2 : ℚ) ^ (-1022 : ℤ) ≤ 2 ^ (-54 : ℤ) := two_zpow_le (by decide)
  rw [size] at near
  -- Rounding does not make up for one part in `2 ^ 53`.
  have less : toRat z < 1 := by
    have above := le_abs_self (toRat z - q)
    rw [show (2 : ℚ) ^ (-54 : ℤ) = 1 / 2 ^ 54 by norm_num] at tiny
    generalize (2 : ℚ) ^ (-1022 : ℤ) = least at *
    linarith
  have magnitudes : magnitude z < magnitude 1.0 := by
    by_contra order
    have values : (scaled 1.0).value ≤ (scaled z).value := double.value_decode_mono (Nat.not_lt.mp order)
    rw [value_one, ← value] at values
    linarith
  refine ⟨finite, value ▸ scaled_value_nonneg z, ?_⟩
  rw [value]
  refine (BinaryFormat.value_decode_of_lt magnitudes).trans_eq ?_
  change (2 ^ 53 - 1) * (scaled 1.0).value = _
  rw [value_one, mul_one]

/-- A part of a greater number is a share of it. -/
theorem isShare_div (signX : isNegative x = false) (signY : isNegative y = false) (finite : x.isFinite = true)
    (less : x < y) : IsShare (x / y) := by
  obtain ⟨numberX, numberY⟩ := number_of_lt less
  cases finiteY : y.isFinite with
  | false =>
    obtain ⟨sign, zero⟩ := div_infinite finite numberY finiteY
    rw [zero]
    exact isShare_zero
  | true =>
    have magnitudes := (lt_iff_magnitude numberX numberY signX signY).mp less
    have positiveY : 0 < (scaled y).value := by
      refine value_pos ((lt_iff_magnitude (by decide) numberY (by decide) signY).mpr ?_)
      exact (Nat.zero_le _).trans_lt magnitudes
    have part : 2 ^ 53 * (scaled x).value ≤ (2 ^ 53 - 1) * (scaled y).value :=
      BinaryFormat.value_decode_of_lt magnitudes
    rcases (scaled_value_nonneg x).eq_or_lt with zero | positiveX
    · obtain ⟨_, unpackY⟩ := unpack_of_nonzero finiteY positiveY.ne'
      obtain ⟨-, unpackX⟩ | ⟨some, -⟩ := unpack_scaled (isFinite_iff.mp finite)
      · have quotient : x / y = ⟨.pack (div Format.binary64 x.toModel.unpack y.toModel.unpack)⟩ := rfl
        rw [quotient, unpackX, unpackY]
        exact isShare_zero
      · exact absurd zero (mul_pos (Nat.cast_pos.mpr some) (two_zpow_pos _)).ne
    · obtain ⟨num, den, some, divisor, value⟩ := exists_fraction (div_pos positiveX positiveY)
      obtain ⟨nearest, sign⟩ := div_nearest finite finiteY some divisor value
      rw [signX, signY, bne_self_eq_false] at sign
      have approximates : Approximates (x / y) ((scaled x).value / (scaled y).value) :=
        approximates_of_nearest some divisor nearest (by rw [sign, value]; rfl)
      refine approximates.isShare sign (div_pos positiveX positiveY).le ?_
      rw [← mul_div_assoc, div_le_iff₀ positiveY]
      exact part

theorem lt_of_not_le (numberX : x.isNaN = false) (numberY : y.isNaN = false) (order : ¬ y ≤ x) : x < y :=
  (lt_iff numberX numberY).mpr (Int.not_le.mp fun less => order ((le_iff numberY numberX).mpr less))

theorem le_of_infinite (numberX : x.isNaN = false) (numberY : y.isNaN = false) (signX : isNegative x = false)
    (signY : isNegative y = false) (infinite : y.isFinite = false) : x ≤ y := by
  have top : double.infinity ≤ magnitude y := by
    rw [← not_lt, ← finite_iff, infinite]
    exact Bool.false_ne_true
  exact (le_iff_magnitude numberX numberY signX signY).mpr ((number_iff.mp numberX).trans top)

theorem ofRatio_parts (num den : ℕ) :
    (ofRatio false num den).isNaN = false ∧ isNegative (ofRatio false num den) = false := by
  rcases (double.roundRatio_le_infinity num den).lt_or_eq with below | top
  · rw [number_iff, ofRatio, magnitude_ofParts false below]
    exact ⟨below.le, isNegative_ofParts false below⟩
  · rw [ofRatio, top]
    decide

theorem hypot_parts (numberX : x.isNaN = false) (numberY : y.isNaN = false) :
    (hypot x y).isNaN = false ∧ isNegative (hypot x y) = false := by
  unfold hypot
  split
  · decide
  · rw [numberX, numberY]
    exact ofRatio_parts _ _

theorem isInf_of_infinite (number : x.isNaN = false) (infinite : x.isFinite = false) : x.isInf = true := by
  change x.toModel.unpack.isInf = true
  rw [unpack_infinite number infinite]
  rfl

theorem hypot_infinite (numberX : x.isNaN = false) (numberY : y.isNaN = false)
    (long : ¬ (x.isFinite = true ∧ y.isFinite = true)) : hypot x y = infinity := by
  refine if_pos ?_
  rw [Bool.or_eq_true]
  rcases not_and_or.mp long with infinite | infinite
  · exact .inl (isInf_of_infinite numberX (Bool.eq_false_of_not_eq_true infinite))
  · exact .inr (isInf_of_infinite numberY (Bool.eq_false_of_not_eq_true infinite))

end Double

end Onboard
