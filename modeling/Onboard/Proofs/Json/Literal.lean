import Onboard.Proofs.Json.Layout
import Onboard.Proofs.Number.Arithmetic

/-! What receivers make of the numbers that are written. They take a literal's digits into a whole number and scale
it by a power of ten, each with an error of its own, and yet a finite number stays finite: the greatest power that
comes with each number of digits is tried here, and the greatest double is a case of its own. -/

namespace Onboard.Json.Literal
open Decimal (nearTop)

/-- The greatest whole number that digits are taken into. -/
abbrev most : ℕ := 0xFFFFFFFFFFFFFFFF

theorem digitsValue_ge (value : ℕ) (digits : List Char) : value * 10 ^ digits.length ≤ digitsValue value digits := by
  induction digits generalizing value with
  | nil => exact Nat.le_of_eq (Nat.mul_one value)
  | cons c rest ih =>
    calc
      value * 10 ^ (rest.length + 1) = 10 * value * 10 ^ rest.length := by ring
      _ ≤ (10 * value + (c.toNat - 48)) * 10 ^ rest.length := Nat.mul_le_mul_right _ (Nat.le_add_right _ _)
      _ ≤ _ := ih _

theorem le_digitsValue (value : ℕ) (digits : List Char) : value ≤ digitsValue value digits :=
  (Nat.le_mul_of_pos_right value (Nat.pow_pos (by decide))).trans (digitsValue_ge value digits)

theorem digitsValue_lt {value k : ℕ} (start : value < 10 ^ k) {digits : List Char} (all : Spelling.AreDigits digits) :
    digitsValue value digits < 10 ^ (k + digits.length) := by
  induction digits generalizing value k with
  | nil => exact start
  | cons c rest ih =>
    have digit := digit_cases (all c List.mem_cons_self)
    have next : 10 * value + (c.toNat - 48) < 10 ^ (k + 1) := by
      rw [Nat.pow_succ]
      omega
    rw [List.length_cons, show k + (rest.length + 1) = k + 1 + rest.length by omega]
    exact ih next fun d member => all d (List.mem_cons_of_mem _ member)

/-- What is left over only makes the number larger. -/
theorem takeDigits_spec {value : ℕ} (start : value ≤ most) (digits : List Char) :
    (takeDigits value digits).1 ≤ most ∧ (takeDigits value digits).2.length ≤ digits.length ∧
      (takeDigits value digits).1 * 10 ^ (takeDigits value digits).2.length ≤ digitsValue value digits := by
  induction digits generalizing value with
  | nil => exact ⟨start, Nat.le_refl _, Nat.le_of_eq (Nat.mul_one value)⟩
  | cons c rest ih =>
    unfold takeDigits
    dsimp only
    split
    · next fits =>
      obtain ⟨small, length, below⟩ := ih fits
      exact ⟨small, length.trans (Nat.le_succ _), below⟩
    · exact ⟨start, Nat.le_refl _, digitsValue_ge value (c :: rest)⟩

/-- All digits are taken if their number fits. -/
theorem takeDigits_all {value : ℕ} {digits : List Char} (fits : digitsValue value digits ≤ most) :
    takeDigits value digits = (digitsValue value digits, []) := by
  induction digits generalizing value with
  | nil => rfl
  | cons c rest ih =>
    have next : digitsValue value [c] ≤ most := (le_digitsValue _ rest).trans fits
    unfold takeDigits
    dsimp only
    rw [if_pos next]
    exact ih fits

open Double (level magnitude)

theorem natCast_lt_overflow {n : ℕ} (small : n ≤ most) : ((n : ℚ) / (1 : ℕ)) < BinaryFormat.overflow := by
  have top : (most : ℚ) ≤ 2 ^ (64 : ℤ) := by norm_num
  have far : (2 : ℚ) ^ (64 : ℤ) < BinaryFormat.overflow := by
    rw [BinaryFormat.overflow]
    calc
      (2 : ℚ) ^ (64 : ℤ) < 2 ^ (970 : ℤ) := two_zpow_lt_iff.mpr (by decide)
      _ ≤ (2 ^ 54 - 1) * 2 ^ (970 : ℤ) := le_mul_of_one_le_left (two_zpow_pos 970).le (by norm_num)
  rw [Nat.cast_one, div_one]
  exact ((Nat.cast_le.mpr small).trans top).trans_lt far

theorem magnitude_ofNat {n : ℕ} (small : n ≤ most) :
    magnitude (Double.ofNat n) = BinaryFormat.double.roundRatio n 1 :=
  Double.magnitude_ofParts false (BinaryFormat.roundRatio_lt_infinity Nat.one_pos (natCast_lt_overflow small))

theorem level_ofNat {n : ℕ} (small : n ≤ most) : level (Double.ofNat n) ≤ 1087 := by
  have order := BinaryFormat.double.roundRatio_mono (by decide) Nat.one_pos small
  have top : BinaryFormat.double.roundRatio most 1 = 1087 * 2 ^ 52 := by decide +kernel
  rw [level, magnitude_ofNat small]
  omega

theorem roundDecimal_power {k : ℕ} (near : k < 309) :
    BinaryFormat.double.roundDecimal 1 k = BinaryFormat.double.roundRatio (10 ^ k) 1 := by
  have range : (1 <<< BinaryFormat.double.exponentBits : ℕ) = 2048 := rfl
  unfold BinaryFormat.roundDecimal
  simp only [range]
  rw [if_neg (by decide), if_neg (by omega), if_neg (by omega), if_pos (by omega), Int.toNat_natCast, Nat.one_mul]
  rfl

/-- The powers are finite, and at least two but for the first. -/
theorem roundDecimal_one : ∀ k : Fin 309, BinaryFormat.double.roundDecimal 1 k < 2047 * 2 ^ 52 ∧
    (1 ≤ k.val → 1024 ≤ BinaryFormat.double.roundDecimal 1 k / 2 ^ 52) := by
  intro k
  have order {i j : ℕ} (less : i ≤ j) (near : j < 309) :
      BinaryFormat.double.roundDecimal 1 i ≤ BinaryFormat.double.roundDecimal 1 j := by
    rw [roundDecimal_power (less.trans_lt near), roundDecimal_power near]
    exact BinaryFormat.double.roundRatio_mono (by decide) Nat.one_pos (Nat.pow_le_pow_right (by decide) less)
  have greatest : BinaryFormat.double.roundDecimal 1 (308 : ℕ) < 2047 * 2 ^ 52 := by decide +kernel
  have least : 1024 * 2 ^ 52 ≤ BinaryFormat.double.roundDecimal 1 (1 : ℕ) := by decide
  refine ⟨(order (Nat.le_of_lt_succ k.isLt) (by decide)).trans_lt greatest, fun some => ?_⟩
  exact (Nat.le_div_iff_mul_le (by decide)).mpr (least.trans (order some k.isLt))

theorem magnitude_powerOfTen {k : ℕ} (near : k ≤ largestPower) :
    magnitude (powerOfTen k) = BinaryFormat.double.roundDecimal 1 k :=
  Double.magnitude_ofParts false (roundDecimal_one ⟨k, Nat.lt_succ_of_le near⟩).1

theorem level_powerOfTen {k : ℕ} (near : k ≤ largestPower) (some : 1 ≤ k) :
    1024 ≤ level (powerOfTen k) ∧ level (powerOfTen k) < 2047 := by
  have power := roundDecimal_one ⟨k, Nat.lt_succ_of_le near⟩
  rw [level, magnitude_powerOfTen near]
  exact ⟨power.2 some, (Nat.div_lt_iff_lt_mul (by decide)).mpr power.1⟩

/-- Dividing never leads out of range. -/
theorem level_div_powerOfTen {x : Float} {a k : ℕ} (bound : level x ≤ a) (some : 1 ≤ a) (finite : a < 2047)
    (near : k ≤ largestPower) (down : 1 ≤ k) : level (x / powerOfTen k) ≤ a := by
  obtain ⟨low, high⟩ := level_powerOfTen near down
  exact Double.level_div bound low some (by decide) finite high some (Nat.le_refl _)

theorem isFinite_scale_down {x : Float} {e : ℤ} {a : ℕ} (bound : level x ≤ a) (some : 1 ≤ a) (finite : a < 2047)
    (down : e < 0) : (scale x e).isFinite = true := by
  fun_induction scale x e with
  | case1 x e near up => exact absurd up (Int.not_le.mpr down)
  | case2 x e near _ =>
    rw [Double.isFinite_iff]
    exact (level_div_powerOfTen bound some finite near (by omega)).trans_lt finite
  | case3 x e far zero =>
    rw [Double.isFinite_iff]
    exact bound.trans_lt finite
  | case4 x e far _ up => exact absurd up (Int.not_le.mpr down)
  | case5 x e far _ _ ih =>
    refine ih (level_div_powerOfTen bound some finite (Nat.le_refl _) (by decide)) ?_
    unfold largestPower at *
    omega

/-- Whether the product of the doubles nearest a whole number and a power of ten is in range. -/
def Fits (n k : ℕ) : Prop :=
  BinaryFormat.Below (BinaryFormat.double.decode (BinaryFormat.double.roundRatio n 1))
    (BinaryFormat.double.decode (BinaryFormat.double.roundDecimal 1 k))

instance (n k : ℕ) : Decidable (Fits n k) :=
  inferInstanceAs (Decidable (BinaryFormat.Below _ _))

/-- The greatest number taken from a literal that has this exponent and is worth no more than `nearTop`. -/
def greatest (k : ℕ) : ℕ :=
  min most ((2 ^ 54 - 3) * 2 ^ 970 / 10 ^ k)

theorem fits_greatest : ∀ k : Fin 309, Fits (greatest k) k := by
  decide +kernel

theorem least_le_exponent (m : ℕ) : -1074 ≤ (BinaryFormat.double.decode m).exponent := by
  obtain ⟨k, exponent, -⟩ := BinaryFormat.double.decoded m
  rw [BinaryFormat.minExponent_double] at exponent
  omega

theorem isFinite_mul_powerOfTen {m n k : ℕ} (fits : Fits n k) (order : m ≤ n) (small : n ≤ most)
    (near : k ≤ largestPower) : (Double.ofNat m * powerOfTen k).isFinite = true := by
  have finite : level (powerOfTen k) < 2047 := by
    rw [level, magnitude_powerOfTen near]
    exact (Nat.div_lt_iff_lt_mul (by decide)).mpr (roundDecimal_one ⟨k, Nat.lt_succ_of_le near⟩).1
  refine Double.isFinite_mul (Double.isFinite_iff.mpr ((level_ofNat (order.trans small)).trans_lt (by decide)))
    (Double.isFinite_iff.mpr finite) (lt_of_le_of_lt ?_ (fits.value_lt (least_le_exponent _) (least_le_exponent _)))
  unfold Double.scaled
  rw [magnitude_ofNat (order.trans small), magnitude_powerOfTen near]
  refine mul_le_mul_of_nonneg_right ?_ ?_
  · exact BinaryFormat.double.value_decode_mono (BinaryFormat.double.roundRatio_mono (by decide) Nat.one_pos order)
  · exact mul_nonneg (Nat.cast_nonneg _) (two_zpow_pos _).le

/-- A number that a literal is worth at most, short of the greatest doubles. -/
theorem isFinite_scale {n : ℕ} {e : ℤ} (small : n ≤ most) (bound : (n * 10 ^ e : ℚ) ≤ nearTop) :
    (scale (Double.ofNat n) e).isFinite = true := by
  rcases Int.lt_or_le e 0 with down | up
  · exact isFinite_scale_down (level_ofNat small) (by decide) (by decide) down
  · obtain ⟨k, rfl⟩ := Int.eq_ofNat_of_zero_le up
    have whole : n * 10 ^ k ≤ (2 ^ 54 - 3) * 2 ^ 970 := by
      have top : (((2 ^ 54 - 3) * 2 ^ 970 : ℕ) : ℚ) = nearTop := by
        rw [nearTop, Nat.cast_mul, Nat.cast_pow, Nat.cast_ofNat]
        norm_num
      rw [← top, zpow_natCast] at bound
      exact_mod_cast bound
    rw [scale]
    split
    · next near =>
      refine isFinite_mul_powerOfTen (fits_greatest ⟨k, Nat.lt_succ_of_le near⟩) ?_ (Nat.min_le_left _ _) near
      exact Nat.le_min.mpr ⟨small, (Nat.le_div_iff_mul_le (Nat.pow_pos (by decide))).mpr whole⟩
    · next far =>
      split
      · exact Double.isFinite_iff.mpr ((level_ofNat small).trans_lt (by decide))
      · next some =>
        -- So large a power leaves nothing but zero.
        have zero : n = 0 := by
          by_contra positive
          have exponent : 309 ≤ k := Nat.lt_of_not_le far
          have power : 10 ^ 309 ≤ 10 ^ k := pow_le_pow_right₀ (by decide) exponent
          have least : 10 ^ k ≤ n * 10 ^ k := Nat.le_mul_of_pos_left _ (Nat.pos_of_ne_zero positive)
          have beyond : (2 ^ 54 - 3) * 2 ^ 970 < 10 ^ 309 := by decide +kernel
          exact absurd (power.trans (least.trans whole)) (Nat.not_le.mpr beyond)
        subst zero
        exact absurd (by decide +kernel) some

theorem isFinite_neg {x : Float} (finite : x.isFinite = true) : (-x).isFinite = true := by
  rw [Double.isFinite_iff] at *
  exact (Double.level_neg (a := 2046) (by omega) (by decide) (by decide)).trans_lt (by decide)

variable {negative : Bool} {value : ℚ} {text : List Char} {s : Spelling}

theorem exponentValue_getD (exponent : Option (Bool × List Char)) :
    (exponent.map fun parts => Spelling.exponentValue (some parts)).getD 0 = Spelling.exponentValue exponent := by
  cases exponent <;> rfl

/-- What a receiver scales is worth no more than the literal. -/
theorem isFinite_toFloat (spells : Layout.Spells negative value text s) (bound : value ≤ nearTop) :
    (Literal.ofBytes (toBytes text)).toFloat.isFinite = true := by
  have start : digitsValue 0 s.whole ≤ most := by
    have digits := digitsValue_lt (k := 0) Nat.one_pos spells.proper.whole
    have short : 10 ^ (0 + s.whole.length) ≤ 10 ^ 16 :=
      Nat.pow_le_pow_right (by decide) ((Nat.zero_add _).trans_le spells.short)
    exact (digits.le.trans short).trans (by decide)
  obtain ⟨small, length, below⟩ := takeDigits_spec start s.fraction
  have worth := spells.value
  change ((digitsValue 0 (s.whole ++ s.fraction) : ℕ) : ℚ) *
    10 ^ (Spelling.exponentValue s.exponent - s.fraction.length) = value at worth
  rw [digitsValue_append] at worth
  rw [← spells.text, Spelling.literal_text spells.proper]
  unfold toFloat
  dsimp only
  rw [takeDigits_all start, exponentValue_getD]
  dsimp only
  have finite : (scale (Double.ofNat (takeDigits (digitsValue 0 s.whole) s.fraction).1)
      (Spelling.exponentValue s.exponent + ([] : List Char).length -
        (s.fraction.length - (takeDigits (digitsValue 0 s.whole) s.fraction).2.length))).isFinite = true := by
    refine isFinite_scale small (le_trans ?_ bound)
    rw [← worth]
    generalize takeDigits (digitsValue 0 s.whole) s.fraction = parts at *
    have places : Spelling.exponentValue s.exponent + ([] : List Char).length -
        (s.fraction.length - parts.2.length : ℤ) =
          parts.2.length + (Spelling.exponentValue s.exponent - s.fraction.length) := by
      rw [List.length_nil]
      omega
    rw [places, zpow_add₀ (by norm_num), ← mul_assoc, zpow_natCast]
    exact mul_le_mul_of_nonneg_right (by exact_mod_cast below) (ten_zpow_pos _).le
  cases s.negative
  · exact finite
  · exact isFinite_neg finite

/-- The spelling of the greatest double. -/
def greatestSpelling (negative : Bool) : Spelling :=
  ⟨negative, Decimal.digitList 1, Decimal.digitList 7976931348623157, some (false, Decimal.digitList 308)⟩

theorem isProper_greatestSpelling (negative : Bool) : (greatestSpelling negative).IsProper where
  whole := areDigits_digitList 1
  some := digitList_ne_nil 1
  leading zero := absurd zero (head?_digitList Nat.one_pos)
  fraction := areDigits_digitList 7976931348623157
  exponent := by
    rintro _ _ ⟨⟩
    exact ⟨areDigits_digitList _, digitList_ne_nil _⟩

theorem greatestSpelling_text : Layout.wire.writeMagnitude .double (BinaryFormat.double.infinity - 1) =
    (greatestSpelling false).text := by
  decide +kernel

theorem isFinite_toFloat_greatest (negative : Bool) : (Literal.ofBytes (toBytes (Layout.signed negative
    (Layout.wire.writeMagnitude .double (BinaryFormat.double.infinity - 1))))).toFloat.isFinite = true := by
  have signed : Layout.signed negative (greatestSpelling false).text = (greatestSpelling negative).text := by
    cases negative <;> rfl
  rw [greatestSpelling_text, signed, Spelling.literal_text (isProper_greatestSpelling negative)]
  have fits : Fits 17976931348623157 292 := by decide +kernel
  have finite : (scale (Double.ofNat 17976931348623157) 292).isFinite = true := by
    rw [scale]
    exact isFinite_mul_powerOfTen fits (Nat.le_refl _) (by decide) (by decide)
  cases negative
  · exact finite
  · exact isFinite_neg finite

end Onboard.Json.Literal
