import Onboard.Proofs.Json.Exact
import Onboard.Proofs.Number.Quotient

/-! What receivers make of singles. The shortest decimal of a single has so few digits that all are taken, and its
power of ten is so small that scaling leaves a double close to it, so that the same single is read again. -/

namespace Onboard

open BinaryFormat (single double)

/-- Decimals of this many digits in the range of singles have small exponents. -/
theorem exponent_range {n : ℕ} {e : ℤ} (some : 0 < n) (few : n < 10 ^ 15) (low : (2 : ℚ) ^ (-151 : ℤ) ≤ n * 10 ^ e)
    (high : (n * 10 ^ e : ℚ) < 2 ^ (129 : ℤ)) : -60 ≤ e ∧ e ≤ 38 := by
  have power := ten_zpow_pos e
  have least : (1 : ℚ) ≤ n := by exact_mod_cast some
  have most : (n : ℚ) < 10 ^ (15 : ℤ) := by exact_mod_cast few
  constructor
  · have above : (10 : ℚ) ^ (-46 : ℤ) < 10 ^ (15 + e) := by
      calc
        (10 : ℚ) ^ (-46 : ℤ) < 2 ^ (-151 : ℤ) := by norm_num
        _ ≤ n * 10 ^ e := low
        _ < 10 ^ (15 : ℤ) * 10 ^ e := mul_lt_mul_of_pos_right most power
        _ = 10 ^ (15 + e) := (zpow_add₀ (by norm_num) ..).symm
    have := (zpow_lt_zpow_iff_right₀ (by norm_num)).mp above
    omega
  · have below : (10 : ℚ) ^ e < 10 ^ (39 : ℤ) := by
      calc
        (10 : ℚ) ^ e ≤ n * 10 ^ e := le_mul_of_one_le_left power.le least
        _ < 2 ^ (129 : ℤ) := high
        _ < 10 ^ (39 : ℤ) := by norm_num
    have := (zpow_lt_zpow_iff_right₀ (by norm_num)).mp below
    omega

namespace Layout
open Json (Spelling)

theorem length_digitList_le {n k : ℕ} (some : 0 < k) (few : n < 10 ^ k) : (Decimal.digitList n).length ≤ k :=
  (Nat.length_toDigits_le_iff (by decide) some).mpr few

theorem length_positionalDigits_le {digits : List Char} {first : ℤ} (few : digits.length ≤ 9) (low : -6 ≤ first)
    (high : first ≤ 12) : (wireSingle.positionalDigits digits first).length ≤ 16 := by
  unfold positionalDigits
  split
  · simp only [List.length_append, List.length_replicate, List.length_cons, List.length_nil]
    omega
  · extract_lets whole
    have whole : whole ≤ 13 := by omega
    split
    · rw [if_pos isPointed_wireSingle.wholePoint]
      simp only [List.length_append, List.length_replicate, List.length_cons, List.length_nil]
      omega
    · simp only [List.length_append, List.length_cons, List.length_take, List.length_drop]
      omega

theorem length_scientificDigits_le {digits : List Char} {first : ℤ} (few : digits.length ≤ 9)
    (near : first.natAbs < 100) : (wireSingle.scientificDigits digits first).length ≤ 16 := by
  have exponent := length_digitList_le (k := 2) (by decide) near
  unfold scientificDigits
  extract_lets mantissa sign
  have mantissa : mantissa.length ≤ digits.length + 1 := by
    simp only [mantissa]
    split <;> simp
  have sign : sign.length ≤ 1 := by
    change List.length (if first < 0 then ['-'] else if wireSingle.plus then ['+'] else []) ≤ 1
    split_ifs <;> simp
  simp only [List.length_append, List.length_cons]
  omega

/-- The decimal of a single takes no more than sixteen characters. -/
theorem length_writeMagnitude_le {magnitude : ℕ} (finite : magnitude < single.infinity) :
    (wireSingle.writeMagnitude .single magnitude).length ≤ 16 := by
  unfold writeMagnitude
  split
  · decide
  · next some =>
    have positive := Nat.pos_of_ne_zero some
    have digits := Decimal.digits_shortest_single positive finite
    have few := length_digitList_le (by decide) digits
    have some := List.length_pos_of_ne_nil (digitList_ne_nil (Decimal.shortest single .even magnitude).digits)
    have range := exponent_range (Decimal.shortest_single .even positive finite).1 (digits.trans (by decide))
      (Decimal.le_shortest_single positive) (Decimal.shortest_single_lt positive finite)
    change (wireSingle.writeDecimal (Decimal.shortest single .even magnitude)).length ≤ 16
    unfold writeDecimal
    extract_lets list first positional
    change list.length ≤ 9 at few
    change (if decide (-6 ≤ first) && decide (first ≤ 12) then _ else _ : List Char).length ≤ 16
    split
    · next inside =>
      rw [Bool.and_eq_true, decide_eq_true_iff, decide_eq_true_iff] at inside
      exact length_positionalDigits_le few inside.1 inside.2
    · exact length_scientificDigits_le few (by omega)

/-- A point or an exponent takes at least one of the characters. -/
theorem Spells.digits_lt {negative : Bool} {value : ℚ} {text : List Char} {s : Spelling}
    (spells : Spells negative value (signed negative text) s) (short : text.length ≤ 16) :
    s.numeral.digits < 10 ^ 15 := by
  have length := congrArg List.length spells.text
  have signs : (signed negative text).length = (Spelling.signText s.negative).length + text.length := by
    rw [spells.negative]
    cases negative
    · exact (Nat.zero_add _).symm
    · exact Nat.add_comm ..
  have point : s.fraction.length + (if s.fraction = [] then 0 else 1) =
      (Spelling.fractionText s.fraction).length := by
    unfold Spelling.fractionText
    split_ifs with none
    · rw [none]
      rfl
    · rfl
  have exponent : (if s.exponent = none then 0 else 1) ≤ (Spelling.exponentText s.exponent).length := by
    cases s.exponent
    · exact Nat.le_refl 0
    · exact Nat.le_add_left ..
  rw [signs, Spelling.text, Spelling.tail] at length
  simp only [List.length_append] at length
  have few : s.whole.length + s.fraction.length ≤ 15 := by
    rcases spells.fractional with some | some
    · rw [if_neg some] at point
      omega
    · rw [if_neg some] at exponent
      omega
  have digits := Json.Literal.digitsValue_lt (k := 0) Nat.one_pos
    (areDigits_append spells.proper.whole spells.proper.fraction)
  rw [Nat.zero_add, List.length_append] at digits
  exact digits.trans_le (Nat.pow_le_pow_right (by decide) few)

end Layout

namespace Json.Literal

/-- A literal whose digits fit is scaled as it stands. -/
theorem toFloat_spelled {negative : Bool} {value : ℚ} {text : List Char} {s : Spelling}
    (spells : Layout.Spells negative value text s) (fits : s.numeral.digits ≤ most) :
    (Literal.ofBytes (toBytes text)).toFloat =
      if negative then -scale (Double.ofNat s.numeral.digits) s.numeral.exponent
      else scale (Double.ofNat s.numeral.digits) s.numeral.exponent := by
  have digits : s.numeral.digits = digitsValue (digitsValue 0 s.whole) s.fraction := digitsValue_append ..
  have exponent : s.numeral.exponent = Spelling.exponentValue s.exponent - s.fraction.length := rfl
  rw [digits] at fits
  rw [← spells.text, Spelling.literal_text spells.proper, digits, exponent, ← spells.negative]
  unfold toFloat
  dsimp only
  rw [takeDigits_all ((le_digitsValue _ _).trans fits), exponentValue_getD]
  dsimp only
  rw [takeDigits_all fits]
  dsimp only
  rw [List.length_nil, Nat.cast_zero, add_zero, sub_zero]

open Double (scaled Rounds)

theorem lt_overflow {q : ℚ} (bound : q < 2 ^ (255 : ℤ)) : q < BinaryFormat.overflow := by
  refine bound.trans_le ?_
  rw [BinaryFormat.overflow]
  exact (two_zpow_le (by decide)).trans (le_mul_of_one_le_left (two_zpow_pos 970).le (by norm_num))

theorem rounds_powerOfTen {k : ℕ} (near : k ≤ 60) : Rounds (powerOfTen k) (10 ^ k) := by
  have low : (1 : ℚ) ≤ 10 ^ k := one_le_pow₀ (by norm_num)
  have high : (10 : ℚ) ^ k < 2 ^ (255 : ℤ) := by
    calc
      (10 : ℚ) ^ k ≤ 10 ^ 60 := pow_le_pow_right₀ (by norm_num) near
      _ < 2 ^ (255 : ℤ) := by norm_num
  have least : (2 : ℚ) ^ (-1000 : ℤ) ≤ 10 ^ k := (zpow_le_one_of_nonpos₀ (by norm_num) (by decide)).trans low
  have decimal : ((1 : ℕ) * 10 ^ (k : ℤ) : ℚ) = 10 ^ k := by rw [Nat.cast_one, one_mul, zpow_natCast]
  obtain ⟨num, den, positive, value, same⟩ := BinaryFormat.roundDecimal_eq
    (((two_zpow_le (by decide)).trans least).trans_eq decimal.symm)
    (decimal.trans_lt (high.trans_le (two_zpow_le (by decide))))
  have magnitude := magnitude_powerOfTen (k := k) (by unfold largestPower; omega)
  have sign : Double.isNegative (powerOfTen k) = false :=
    Double.isNegative_ofParts false (roundDecimal_one ⟨k, by omega⟩).1
  exact Double.rounds_of_nearest positive (magnitude.trans same) sign (value.trans decimal) least (lt_overflow high)

theorem rounds_ofNat {n : ℕ} (some : 0 < n) (few : n < 2 ^ 53) : Rounds (Double.ofNat n) n :=
  Double.rounds_ofRatio some (Double.natCast_lt_overflow (few.trans (by decide)))

theorem value_ofNat {n : ℕ} (some : 0 < n) (few : n < 2 ^ 53) : (scaled (Double.ofNat n)).value = n :=
  (rounds_ofNat some few).exact (c := n) (e := 0) few (by decide) (by rw [zpow_zero, mul_one])

/-- These powers of five have no more bits than a double holds. -/
theorem value_powerOfTen {k : ℕ} (near : k ≤ 22) : (scaled (powerOfTen k)).value = 10 ^ k := by
  refine (rounds_powerOfTen (near.trans (by decide))).exact (c := 5 ^ k) (e := k) ?_ (by omega) ?_
  · exact (Nat.pow_le_pow_right (by decide) near).trans_lt (by decide)
  · rw [Nat.cast_pow, Nat.cast_ofNat, zpow_natCast, ← mul_pow]
    norm_num

/-- Errors of a factor and of the product add up. -/
theorem near_mul {n p q y : ℚ} (some : 0 ≤ n) (factor : 2 ^ 53 * |p - q| ≤ q) (product : 2 ^ 53 * |y - n * p| ≤ n * p) :
    2 ^ 54 * |y - n * q| ≤ 5 * (n * q) := by
  have moved : |n * p - n * q| = n * |p - q| := by rw [← mul_sub, abs_mul, abs_of_nonneg some]
  have apart := abs_sub_le y (n * p) (n * q)
  have above := le_abs_self (n * p - n * q)
  have scaled := mul_le_mul_of_nonneg_left factor some
  have error := mul_nonneg some (abs_nonneg (p - q))
  rw [moved] at apart above
  linarith

/-- Errors of a divisor and of the quotient add up. -/
theorem near_div {n p q y : ℚ} (some : 0 ≤ n) (positive : 0 < p) (exact : 0 < q) (divisor : 2 ^ 53 * |p - q| ≤ q)
    (quotient : 2 ^ 53 * |y - n / p| ≤ n / p) : 2 ^ 54 * |y - n / q| ≤ 5 * (n / q) := by
  have size := div_nonneg some positive.le
  have moved : |n / p - n / q| = n / p * (|p - q| / q) := by
    have same : n / p - n / q = n / p * ((q - p) / q) := by field_simp
    rw [same, abs_mul, abs_of_nonneg size, abs_div, abs_of_pos exact, abs_sub_comm]
  have ratio : 2 ^ 53 * (|p - q| / q) ≤ 1 := by
    rw [← mul_div_assoc]
    exact (div_le_one exact).mpr divisor
  have scaled := mul_le_mul_of_nonneg_left ratio size
  have apart := abs_sub_le y (n / p) (n / q)
  have above := le_abs_self (n / p - n / q)
  rw [moved] at apart above
  linarith

theorem five_pow_le {n j k : ℕ} (some : 0 < n) (divides : 5 ^ j ∣ n * 2 ^ k) : 5 ^ j ≤ n :=
  Nat.le_of_dvd some (Nat.Coprime.dvd_of_dvd_mul_right (Nat.Coprime.pow j k (by decide)) divides)

theorem le_of_five_pow {n j : ℕ} (power : 5 ^ j ≤ n) (few : n < 10 ^ 15) : j ≤ 22 := by
  by_contra above
  have more : 5 ^ 22 ≤ 5 ^ j := Nat.pow_le_pow_right (by decide) (by omega)
  exact absurd ((more.trans power).trans_lt few) (by decide)

theorem bounds_powerOfTen {k : ℕ} (near : k ≤ 60) :
    1 / 2 ≤ (scaled (powerOfTen k)).value ∧ (scaled (powerOfTen k)).value ≤ 2 * 10 ^ 60 := by
  have low : (1 : ℚ) ≤ 10 ^ k := one_le_pow₀ (by norm_num)
  have high : (10 : ℚ) ^ k ≤ 10 ^ 60 := pow_le_pow_right₀ (by norm_num) near
  have distance := (le_div_iff₀' (by norm_num)).mpr (rounds_powerOfTen near).near
  obtain ⟨below, above⟩ := abs_le.mp distance
  constructor <;> linarith

theorem natCast_shifted {q : ℚ} {c : ℕ} {e : ℤ} (least : -151 ≤ e) (exact : q = c * 2 ^ e) :
    ∃ k : ℕ, q * 2 ^ 151 = (c * 2 ^ k : ℕ) := by
  obtain ⟨k, rfl⟩ := Int.exists_add_of_le least
  refine ⟨k, ?_⟩
  rw [exact, add_comm, two_zpow_add, zpow_natCast, mul_assoc, mul_assoc]
  push_cast
  norm_num

section Scale
variable {n j : ℕ} (some : 0 < n) (few : n < 10 ^ 15) (near : j ≤ 60)
include some few near

theorem closeTo_mul : Double.isNegative (Double.ofNat n * powerOfTen j) = false ∧
    CloseTo (n * 10 ^ j) (scaled (Double.ofNat n * powerOfTen j)).value := by
  have digits := rounds_ofNat some (few.trans (by decide))
  have power := rounds_powerOfTen near
  have whole := value_ofNat some (few.trans (by decide))
  obtain ⟨low, high⟩ := bounds_powerOfTen near
  have least : (1 : ℚ) ≤ n := by exact_mod_cast some
  have most : (n : ℚ) ≤ 10 ^ 15 := by exact_mod_cast few.le
  have rounds := Double.rounds_mul digits.finite power.finite digits.isNegative power.isNegative
    (by
      rw [whole]
      calc
        (2 : ℚ) ^ (-1000 : ℤ) ≤ 2 ^ (-1 : ℤ) := two_zpow_le (by decide)
        _ = 1 * (1 / 2) := by norm_num
        _ ≤ _ := mul_le_mul least low (by norm_num) (Nat.cast_nonneg n))
    (lt_overflow (by
      rw [whole]
      calc
        (n * (scaled (powerOfTen j)).value : ℚ) ≤ 10 ^ 15 * (2 * 10 ^ 60) :=
          mul_le_mul most high (by linarith) (by norm_num)
        _ < 2 ^ (255 : ℤ) := by norm_num))
  rw [whole] at rounds
  refine ⟨rounds.isNegative, near_mul (Nat.cast_nonneg n) power.near rounds.near, ?_⟩
  intro c e small least exact
  -- The power of five is one of the factors of so short a coefficient, so that the power of ten is exact.
  obtain ⟨k, shifted⟩ := natCast_shifted least exact
  have whole : n * 10 ^ j * 2 ^ 151 = c * 2 ^ k := by exact_mod_cast shifted
  have divides : 5 ^ j ∣ c * 2 ^ k := by
    rw [← whole]
    exact ((pow_dvd_pow_of_dvd (by decide : 5 ∣ 10) j).mul_left n).mul_right _
  have coefficient : 0 < c := Nat.pos_of_ne_zero fun zero => by
    rw [zero, Nat.zero_mul] at whole
    exact absurd whole (by positivity)
  have powers := le_of_five_pow (five_pow_le coefficient divides) (small.trans (by decide))
  rw [value_powerOfTen powers] at rounds
  exact rounds.exact (small.trans (by decide)) (by omega) exact

theorem closeTo_div : Double.isNegative (Double.ofNat n / powerOfTen j) = false ∧
    CloseTo (n / 10 ^ j) (scaled (Double.ofNat n / powerOfTen j)).value := by
  have digits := rounds_ofNat some (few.trans (by decide))
  have power := rounds_powerOfTen near
  have whole := value_ofNat some (few.trans (by decide))
  obtain ⟨low, high⟩ := bounds_powerOfTen near
  have positive : 0 < (scaled (powerOfTen j)).value := lt_of_lt_of_le (by norm_num) low
  have least : (1 : ℚ) ≤ n := by exact_mod_cast some
  have most : (n : ℚ) ≤ 10 ^ 15 := by exact_mod_cast few.le
  have rounds := Double.rounds_div digits.finite power.finite digits.isNegative power.isNegative
    (by
      rw [whole, le_div_iff₀ positive]
      calc
        (2 : ℚ) ^ (-1000 : ℤ) * _ ≤ 2 ^ (-255 : ℤ) * (2 * 10 ^ 60) :=
          mul_le_mul (two_zpow_le (by decide)) high positive.le (by positivity)
        _ ≤ 1 := by norm_num
        _ ≤ n := least)
    (lt_overflow (by
      rw [whole, div_lt_iff₀ positive]
      calc
        (n : ℚ) ≤ 10 ^ 15 := most
        _ < 2 ^ (255 : ℤ) * (1 / 2) := by norm_num
        _ ≤ _ := mul_le_mul_of_nonneg_left low (by positivity)))
  rw [whole] at rounds
  refine ⟨rounds.isNegative, near_div (Nat.cast_nonneg n) positive (by positivity) power.near rounds.near, ?_⟩
  intro c e small least exact
  obtain ⟨k, shifted⟩ := natCast_shifted least exact
  have whole : n * 2 ^ 151 = c * 2 ^ k * 10 ^ j := by
    rw [div_mul_eq_mul_div, div_eq_iff (by positivity)] at shifted
    exact_mod_cast shifted
  have divides : 5 ^ j ∣ n * 2 ^ 151 := by
    rw [whole]
    exact (pow_dvd_pow_of_dvd (by decide : 5 ∣ 10) j).mul_left _
  have powers := le_of_five_pow (five_pow_le some divides) few
  rw [value_powerOfTen powers] at rounds
  exact rounds.exact (small.trans (by decide)) (by omega) exact

end Scale

theorem ten_zpow_up {e : ℤ} (up : 0 ≤ e) : (10 : ℚ) ^ e = 10 ^ e.natAbs := by
  rw [← zpow_natCast, Int.natAbs_of_nonneg up]

theorem ten_zpow_down {e : ℤ} (down : ¬ 0 ≤ e) : (10 : ℚ) ^ e = (10 ^ e.natAbs)⁻¹ := by
  rw [← zpow_natCast, ← zpow_neg, Int.ofNat_natAbs_of_nonpos (by omega), neg_neg]

/-- Scaling a number of few digits by a small power of ten comes close to the decimal. -/
theorem closeTo_scale {n : ℕ} {e : ℤ} (some : 0 < n) (few : n < 10 ^ 15) (low : -60 ≤ e) (high : e ≤ 60) :
    Double.isNegative (scale (Double.ofNat n) e) = false ∧
      CloseTo (n * 10 ^ e) (scaled (scale (Double.ofNat n) e)).value := by
  have near : e.natAbs ≤ 60 := by omega
  rw [scale, dif_pos (near.trans (by decide))]
  split
  · next up =>
    rw [ten_zpow_up up]
    exact closeTo_mul some few near
  · next down =>
    rw [ten_zpow_down down, ← div_eq_mul_inv]
    exact closeTo_div some few near

end Json.Literal

namespace Json

/-- The sign and the size of what is made of a single's decimal. -/
theorem receivedSingle_parts {x : Single} (finite : x.isFinite = true) (positive : 0 < x.magnitude) :
    Double.isNegative (receivedSingle x) = x.isNegative ∧
      CloseTo (Decimal.shortest single .even x.magnitude).value (Double.scaled (receivedSingle x)).value := by
  have bound : x.magnitude < single.infinity := of_decide_eq_true finite
  obtain ⟨⟨s, spells⟩, top⟩ := spells_finiteSingle finite
  have few := spells.digits_lt (Layout.length_writeMagnitude_le bound)
  have value := spells.value
  rw [← value] at top
  rw [Layout.worth, if_neg positive.ne'] at value
  change _ = (Decimal.shortest single .even x.magnitude).value at value
  have low := Decimal.le_shortest_single positive
  have high := Decimal.shortest_single_lt positive bound
  rw [← value] at low high ⊢
  have some : 0 < s.numeral.digits := pos_of_two_zpow_le low
  have range := exponent_range some few low high
  obtain ⟨sign, close⟩ := Literal.closeTo_scale some few range.1 (range.2.trans (by decide))
  have fits := few.le.trans (by decide : 10 ^ 15 ≤ Literal.most)
  have scaled := Literal.isFinite_scale fits top
  rw [receivedSingle, Literal.toFloat_spelled spells fits]
  cases x.isNegative with
  | false => exact ⟨sign, close⟩
  | true =>
    obtain ⟨same, opposite⟩ := Double.neg_parts scaled
    rw [if_pos rfl, opposite, sign, Double.scaled, same]
    exact ⟨rfl, close⟩

/-- The same single is read from what a receiver makes of it, the excused one by luck. -/
theorem ofFloat_receivedSingle {x : Single} (finite : x.isFinite = true) : Single.ofFloat (receivedSingle x) = x := by
  have whole := x.ofParts_magnitude
  rcases Nat.eq_zero_or_pos x.magnitude with zero | positive
  · rw [zero] at whole
    rw [← whole]
    cases x.isNegative <;> decide +kernel
  by_cases usual : x.magnitude = Decimal.excusedMagnitude
  · rw [usual] at whole
    rw [← whole]
    cases x.isNegative <;> decide +kernel
  · obtain ⟨sign, close⟩ := receivedSingle_parts finite positive
    exact Single.ofFloat_of_close positive finite usual (isFinite_receivedSingle finite) sign close

/-- Receivers keep every finite single. -/
theorem toSingle?_settle_iff (x : Single) : toSingle? (settle (ofSingle x)) = some x ↔ x.isFinite = true := by
  by_cases finite : x.isFinite = true
  · have still := isFinite_receivedSingle finite
    rw [settle_ofSingle finite, toSingle?_ofFloat still, toFloat?_ofFloat_eq still, Option.map_some,
      ofFloat_receivedSingle finite]
    exact iff_of_true rfl finite
  · rw [ofSingle, if_neg finite]
    exact iff_of_false (Option.some_ne_none x).symm finite

end Json

end Onboard
