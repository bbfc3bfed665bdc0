import Mathlib
import Onboard.Proofs.Number.Operations

/-! Positive doubles divided and made whole. Division keeps the order, also where a quotient is too large to be finite;
the integer that a double is converted to is the nearest one of its value, or the largest one with 64 bits. -/

namespace Onboard.Double
open Float.Model (UnpackedFloat)
open Float.Model.UnpackedFloat
open BinaryFormat (double)
variable {x y u v : Float}

theorem number_iff : x.isNaN = false ↔ magnitude x ≤ double.infinity := by
  have unpacked := unpacks x
  have whole := Nat.div_add_mod (magnitude x) (2 ^ 52)
  rw [BinaryFormat.infinity_double]
  change x.toModel.unpack.isNaN = false ↔ _
  generalize x.toModel.unpack = unpackedX at *
  cases unpacked with
  | notANumber top some => exact iff_of_false nofun (by omega)
  | infinity top none => exact iff_of_true rfl (by omega)
  | zero bottom none => exact iff_of_true rfl (by omega)
  | subnormal positive bottom => exact iff_of_true rfl (by omega)
  | normal positive implicit above below => exact iff_of_true rfl (by omega)

theorem finite_iff : x.isFinite = true ↔ magnitude x < double.infinity := by
  rw [isFinite_iff, level, Nat.div_lt_iff_lt_mul (by decide)]
  exact Iff.rfl

theorem parts_of_pos (positive : 0.0 < x) : isNegative x = false ∧ 0 < magnitude x := by
  obtain ⟨numberZero, number⟩ := number_of_lt positive
  have above := (lt_iff numberZero number).mp positive
  rw [show place 0.0 = 0 by decide, place] at above
  split at above
  · omega
  · next sign =>
    constructor
    · exact Bool.eq_false_of_not_eq_true sign
    · exact_mod_cast above

section Order
variable (numberX : x.isNaN = false) (numberY : y.isNaN = false) (signX : isNegative x = false)
  (signY : isNegative y = false)
include numberX numberY signX signY

theorem le_iff_magnitude : x ≤ y ↔ magnitude x ≤ magnitude y := by
  rw [le_iff numberX numberY, place, place, signX, signY]
  exact Int.ofNat_le

theorem lt_iff_magnitude : x < y ↔ magnitude x < magnitude y := by
  rw [lt_iff numberX numberY, place, place, signX, signY]
  exact Int.ofNat_lt

end Order

theorem lt_of_lt_of_le (first : x < y) (second : y ≤ u) : x < u := by
  obtain ⟨numberX, numberY⟩ := number_of_lt first
  obtain ⟨-, numberU⟩ := number_of_le second
  exact (lt_iff numberX numberU).mpr
    (Int.lt_of_lt_of_le ((lt_iff numberX numberY).mp first) ((le_iff numberY numberU).mp second))

theorem not_lt_iff (numberX : x.isNaN = false) (numberY : y.isNaN = false) : ¬ x < y ↔ y ≤ x := by
  rw [lt_iff numberX numberY, le_iff numberY numberX]
  exact Int.not_lt

section Order
variable (signX : isNegative x = false) (signY : isNegative y = false) (order : x ≤ y)
include signX signY order

theorem isFinite_of_le (finite : y.isFinite = true) : x.isFinite = true := by
  obtain ⟨numberX, numberY⟩ := number_of_le order
  exact finite_iff.mpr (((le_iff_magnitude numberX numberY signX signY).mp order).trans_lt (finite_iff.mp finite))

theorem value_le : (scaled x).value ≤ (scaled y).value := by
  obtain ⟨numberX, numberY⟩ := number_of_le order
  exact double.value_decode_mono ((le_iff_magnitude numberX numberY signX signY).mp order)

end Order

/-- Two positive doubles with none between them. -/
def Precedes (y next : Float) : Prop :=
  0.0 < y ∧ 0.0 < next ∧ magnitude next = magnitude y + 1

instance : Decidable (Precedes x y) :=
  inferInstanceAs (Decidable (_ ∧ _))

section Precedes
variable {last limit : Float} (precedes : Precedes last limit)
include precedes

theorem Precedes.isFinite : last.isFinite = true := by
  obtain ⟨-, positive, follows⟩ := precedes
  have bound := number_iff.mp (number_of_lt positive).2
  exact finite_iff.mpr (by omega)

theorem Precedes.le_of_lt (sign : isNegative x = false) (less : x < limit) : x ≤ last := by
  obtain ⟨numberX, numberLimit⟩ := number_of_lt less
  have number := number_of_isFinite precedes.isFinite
  obtain ⟨positive, above, follows⟩ := precedes
  have below := (lt_iff_magnitude numberX numberLimit sign (parts_of_pos above).1).mp less
  exact (le_iff_magnitude numberX number sign (parts_of_pos positive).1).mpr (by omega)

/-- A property that passes to smaller numbers has a limit: the first number without it. -/
theorem Precedes.holds_iff {P : Float → Prop}
    (smaller : ∀ {x y}, 0.0 < x → x ≤ y → y.isFinite = true → P y → P x) (holds : P last) (fails : ¬ P limit)
    (positive : 0.0 < x) (finite : x.isFinite = true) : P x ↔ x < limit := by
  constructor
  · intro held
    by_contra large
    have order := (not_lt_iff (number_of_isFinite finite) (number_of_lt precedes.2.1).2).mp large
    exact fails (smaller precedes.2.1 order finite held)
  · intro less
    exact smaller positive (precedes.le_of_lt (parts_of_pos positive).1 less) precedes.isFinite holds

end Precedes

theorem value_pos (positive : 0.0 < x) : 0 < (scaled x).value := by
  obtain ⟨-, some⟩ := parts_of_pos positive
  have least : (double.decode 1).value = 2 ^ (-1074 : ℤ) := by
    rw [show double.decode 1 = ⟨1, -1074⟩ by rfl, Scaled.value, Nat.cast_one, one_mul]
  exact ((two_zpow_pos _).trans_eq least.symm).trans_le (double.value_decode_mono some)

/-- A quotient of positive doubles is a number without a sign, if not a finite one. -/
theorem div_parts (positiveX : 0.0 < x) (positiveY : 0.0 < y) (finiteX : x.isFinite = true)
    (finiteY : y.isFinite = true) : (x / y).isNaN = false ∧ isNegative (x / y) = false := by
  obtain ⟨num, den, some, positive, exact⟩ := exists_fraction (div_pos (value_pos positiveX) (value_pos positiveY))
  obtain ⟨nearest, sign⟩ := div_nearest finiteX finiteY some positive exact
  constructor
  · rw [number_iff, nearest, double.roundRatio_eq some]
    exact Nat.min_le_left _ _
  · rw [sign, (parts_of_pos positiveX).1, (parts_of_pos positiveY).1]
    rfl

/-- Two positive fractions with one denominator. -/
theorem exists_fractions {s t : ℚ} (positive : 0 < s) (order : s ≤ t) : ∃ m n den : ℕ,
    0 < m ∧ m ≤ n ∧ 0 < den ∧ (m / den : ℚ) = s ∧ (n / den : ℚ) = t := by
  obtain ⟨m, d, someM, positiveD, rfl⟩ := exists_fraction positive
  obtain ⟨n, e, someN, positiveE, rfl⟩ := exists_fraction (positive.trans_le order)
  have divisorD : (0 : ℚ) < d := Nat.cast_pos.mpr positiveD
  have divisorE : (0 : ℚ) < e := Nat.cast_pos.mpr positiveE
  refine ⟨m * e, n * d, d * e, Nat.mul_pos someM positiveE, ?_, Nat.mul_pos positiveD positiveE, ?_, ?_⟩
  · rw [div_le_div_iff₀ divisorD divisorE] at order
    exact_mod_cast order
  · push_cast
    exact mul_div_mul_right _ _ divisorE.ne'
  · push_cast
    rw [mul_comm (d : ℚ)]
    exact mul_div_mul_right _ _ divisorD.ne'

theorem div_le_div (positiveX : 0.0 < x) (order : x ≤ u) (finiteU : u.isFinite = true) (positiveV : 0.0 < v)
    (divisors : v ≤ y) (finiteY : y.isFinite = true) : x / y ≤ u / v := by
  have positiveU := lt_of_lt_of_le positiveX order
  have positiveY := lt_of_lt_of_le positiveV divisors
  have signX := (parts_of_pos positiveX).1
  have signY := (parts_of_pos positiveY).1
  have signU := (parts_of_pos positiveU).1
  have signV := (parts_of_pos positiveV).1
  have finiteX := isFinite_of_le signX signU order finiteU
  have finiteV := isFinite_of_le signV signY divisors finiteY
  obtain ⟨numberXY, signXY⟩ := div_parts positiveX positiveY finiteX finiteY
  obtain ⟨numberUV, signUV⟩ := div_parts positiveU positiveV finiteU finiteV
  have dividends := value_le signX signU order
  have smaller := value_le signV signY divisors
  -- With one denominator the numerators are in order, and rounding is monotone in the numerator.
  obtain ⟨m, n, den, some, values, positive, exact, exact'⟩ := exists_fractions
    (div_pos (value_pos positiveX) (value_pos positiveY))
    (div_le_div₀ (value_pos positiveU).le dividends (value_pos positiveV) smaller)
  rw [le_iff_magnitude numberXY numberUV signXY signUV, (div_nearest finiteX finiteY some positive exact).1,
    (div_nearest finiteU finiteV (some.trans_le values) positive exact').1]
  exact double.roundRatio_mono (by decide) positive values

/-- The largest integer of 64 bits, where a conversion stops. -/
def greatest : ℕ := 0xFFFFFFFFFFFFFFFF

theorem toNat_ofNatClamp (n : ℕ) : (UInt64.ofNatClamp n).toNat = Nat.min greatest n := by
  unfold UInt64.ofNatClamp
  split
  · next small =>
    rw [UInt64.toNat_ofNatLT]
    exact (Nat.min_eq_right (Nat.le_of_lt_succ small)).symm
  · next large =>
    rw [UInt64.toNat_ofNatLT]
    exact (Nat.min_eq_left (Nat.le_of_lt (Nat.le_of_not_lt large))).symm

theorem roundToInt_eq (sign : Sign) (m : ℕ) (e : ℤ) : roundToInt sign m e = sign.apply ⌊(m * 2 ^ e : ℚ)⌋₊ := by
  have mantissa : roundToInt sign m e =
      sign.apply (m <<< (e - 0).toNat / 2 ^ (0 - (e - (e - 0).toNat)).toNat : ℕ) := by
    change sign.apply (ExtendedMantissa.ofMantissaAndAccuracy (m <<< (e - 0).toNat) .exact >>>
      (0 - (e - (e - 0).toNat)).toNat).mantissa = _
    rw [mantissa_shiftRight, mantissa_ofMantissaAndAccuracy]
  rw [mantissa, Nat.shiftLeft_eq]
  congr 2
  rcases Int.le_total 0 e with up | down
  · obtain ⟨k, rfl⟩ := Int.eq_ofNat_of_zero_le up
    rw [zpow_natCast, show (0 - ((k : ℤ) - ((k : ℤ) - 0).toNat)).toNat = 0 by omega,
      show ((k : ℤ) - 0).toNat = k by omega, pow_zero, Nat.div_one]
    exact_mod_cast (Nat.floor_natCast (m * 2 ^ k)).symm
  · obtain ⟨k, rfl⟩ := Int.exists_eq_neg_ofNat down
    rw [show (-(k : ℤ) - 0).toNat = 0 by omega, pow_zero, Nat.mul_one, zpow_neg, zpow_natCast, ← div_eq_mul_inv,
      show (0 - (-(k : ℤ) - (0 : ℕ))).toNat = k by omega]
    exact_mod_cast (Nat.floor_div_eq_div (K := ℚ) m (2 ^ k)).symm

/-- A conversion to an integer cuts off the fraction. -/
theorem toNat_toUInt64 (finite : x.isFinite = true) (sign : isNegative x = false) :
    x.toUInt64.toNat = Nat.min greatest ⌊(scaled x).value⌋₊ := by
  have positive : signOf x = .positive := by rw [signOf, sign]; rfl
  change (UInt64.ofNatClamp (toInt 0 greatest x.toModel.unpack).toNat).toNat = _
  rw [toNat_ofNatClamp]
  rcases unpack_scaled (isFinite_iff.mp finite) with ⟨zero, unpacked⟩ | ⟨some, unpacked⟩
  · rw [unpacked, Scaled.value, zero, Nat.cast_zero, zero_mul, Nat.floor_zero]
    rfl
  · rw [unpacked, positive]
    change Nat.min greatest (roundToInt .positive _ _).toNat = _
    rw [roundToInt_eq]
    rfl

theorem toNat_toUInt64_infinite (number : x.isNaN = false) (infinite : x.isFinite = false)
    (sign : isNegative x = false) : x.toUInt64.toNat = greatest := by
  have positive : signOf x = .positive := by rw [signOf, sign]; rfl
  change (UInt64.ofNatClamp (toInt 0 greatest x.toModel.unpack).toNat).toNat = _
  have unpacked := unpacks x
  rw [positive] at unpacked
  change x.toModel.unpack.isNaN = false at number
  change x.toModel.unpack.isFinite = false at infinite
  generalize x.toModel.unpack = unpackedX at *
  cases unpacked with
  | infinity => rfl
  | notANumber => contradiction
  | zero | subnormal | normal => contradiction

/-- A double without a sign that is exactly this whole number. -/
structure IsWhole (x : Float) (n : ℕ) : Prop where
  finite : x.isFinite = true
  isNegative : isNegative x = false
  value : (scaled x).value = n

/-- The double nearest a positive integer. -/
theorem rounds_ofRatio {n : ℕ} (some : 0 < n) (below : (n : ℚ) < BinaryFormat.overflow) :
    Rounds (ofRatio false n 1) n := by
  have above : (1 : ℚ) ≤ n := Nat.one_le_cast.mpr some
  have ratio : (n / (1 : ℕ) : ℚ) = n := by rw [Nat.cast_one, div_one]
  have bound := BinaryFormat.roundRatio_lt_infinity Nat.one_pos (ratio.trans_lt below)
  exact rounds_of_nearest Nat.one_pos (magnitude_ofParts false bound) (isNegative_ofParts false bound) ratio
    ((zpow_le_one_of_nonpos₀ (by norm_num) (by decide)).trans above) below

theorem natCast_lt_overflow {n : ℕ} (small : n < 2 ^ 64) : (n : ℚ) < BinaryFormat.overflow := by
  calc
    (n : ℚ) < 2 ^ 64 := by exact_mod_cast small
    _ ≤ (2 ^ 54 - 1) * 2 ^ (20 : ℤ) := by norm_num
    _ ≤ BinaryFormat.overflow := mul_le_mul_of_nonneg_left (two_zpow_le (by decide)) (by norm_num)

theorem isWhole_ofRatio {n : ℕ} (small : n < 2 ^ 53) : IsWhole (ofRatio false n 1) n := by
  rcases Nat.eq_zero_or_pos n with rfl | some
  · exact ⟨by decide, by decide, by rw [Nat.cast_zero, Scaled.value]; exact mul_eq_zero_of_left rfl _⟩
  · have rounds := rounds_ofRatio some (natCast_lt_overflow (small.trans (by decide)))
    refine ⟨rounds.finite, rounds.isNegative, ?_⟩
    exact rounds.exact (c := n) (e := 0) small (by decide) (by rw [zpow_zero, mul_one])

/-- A double whose fraction is replaced by a whole number near it. -/
theorem isWhole_mapFraction {whole : ℕ → ℕ → ℕ} {nearest : ℚ → ℕ}
    (same : ∀ num den, 0 < den → whole num den = nearest (num / den)) (kept : ∀ n : ℕ, nearest n = n)
    (near : ∀ q, 0 ≤ q → (nearest q : ℚ) ≤ q + 1) (finite : x.isFinite = true) (sign : isNegative x = false) :
    IsWhole (mapFraction whole x) (nearest (scaled x).value) := by
  obtain ⟨few, -, -, -⟩ := scaled_spec (isFinite_iff.mp finite)
  unfold mapFraction
  dsimp only
  rw [if_pos finite]
  split
  · next up =>
    obtain ⟨k, exponent⟩ := Int.eq_ofNat_of_zero_le up
    have exact : (scaled x).value = ((scaled x).coefficient * 2 ^ k : ℕ) := by
      rw [Scaled.value, exponent, zpow_natCast]
      push_cast
      rfl
    refine ⟨finite, sign, ?_⟩
    rw [exact, kept]
  · next down =>
    obtain ⟨k, exponent⟩ := Int.exists_eq_neg_ofNat (Int.le_of_lt (Int.not_le.mp down))
    have some : k ≠ 0 := by omega
    have exact : (scaled x).value = (scaled x).coefficient / (2 ^ k : ℕ) := by
      rw [Scaled.value, exponent, zpow_neg, zpow_natCast, ← div_eq_mul_inv]
      push_cast
      rfl
    have digits : whole (scaled x).coefficient (1 <<< (-(scaled x).exponent).toNat) = nearest (scaled x).value := by
      rw [exponent, neg_neg, Int.toNat_natCast, Nat.shiftLeft_eq, Nat.one_mul, same _ _ (Nat.two_pow_pos k), exact]
    rw [sign, digits]
    refine isWhole_ofRatio ?_
    -- A double with a fraction has at most 52 bits before it, so there is room for rounding up.
    have halved : (scaled x).value < 2 ^ 52 := by
      rw [exact, div_lt_iff₀ (by positivity)]
      have double : 2 * 2 ^ 52 ≤ 2 ^ 52 * 2 ^ k :=
        (Nat.mul_comm 2 _).trans_le (Nat.mul_le_mul_left _ (Nat.le_self_pow some 2))
      exact_mod_cast few.trans_le double
    have bound := near (scaled x).value (by rw [Scaled.value]; positivity)
    exact_mod_cast (bound.trans_lt (add_lt_add_left halved 1)).trans (by norm_num : (2 ^ 52 + 1 : ℚ) < 2 ^ 53)

theorem isWhole_ceil (finite : x.isFinite = true) (sign : isNegative x = false) :
    IsWhole (ceil x) ⌈(scaled x).value⌉₊ := by
  refine isWhole_mapFraction (fun num den positive => ?_) Nat.ceil_natCast (fun q some => (Nat.ceil_lt_add_one some).le)
    finite sign
  rw [sign, if_neg Bool.false_ne_true]
  refine eq_of_forall_ge_iff fun k => ?_
  rw [Nat.ceil_le, div_le_iff₀ (Nat.cast_pos.mpr positive), Nat.div_le_iff_le_mul_add_pred positive]
  norm_cast
  rw [Nat.mul_comm]
  omega

theorem isWhole_round (finite : x.isFinite = true) (sign : isNegative x = false) :
    IsWhole (round x) ⌊(scaled x).value + 1 / 2⌋₊ := by
  refine @isWhole_mapFraction _ _ (fun q => ⌊q + 1 / 2⌋₊) (fun num den positive => ?_) (fun n => ?_)
    (fun q some => ?_) finite sign
  · have divisor : (den : ℚ) ≠ 0 := (Nat.cast_pos.mpr positive).ne'
    rw [roundHalfUp, ← Nat.floor_div_eq_div (K := ℚ)]
    congr 1
    push_cast
    field_simp
  · rw [Nat.floor_eq_iff (by positivity)]
    constructor <;> linarith
  · linarith [Nat.floor_le (show 0 ≤ q + 1 / 2 by linarith)]

theorem toNat_ceil (finite : x.isFinite = true) (sign : isNegative x = false) :
    (ceil x).toUInt64.toNat = Nat.min greatest ⌈(scaled x).value⌉₊ := by
  have whole := isWhole_ceil finite sign
  rw [toNat_toUInt64 whole.finite whole.isNegative, whole.value, Nat.floor_natCast]

theorem toNat_round (finite : x.isFinite = true) (sign : isNegative x = false) :
    (round x).toUInt64.toNat = Nat.min greatest ⌊(scaled x).value + 1 / 2⌋₊ := by
  have whole := isWhole_round finite sign
  rw [toNat_toUInt64 whole.finite whole.isNegative, whole.value, Nat.floor_natCast]

theorem toNat_round_le (signX : isNegative x = false) (signY : isNegative y = false) (order : x ≤ y) :
    (round x).toUInt64.toNat ≤ (round y).toUInt64.toNat := by
  obtain ⟨-, numberY⟩ := number_of_le order
  cases finiteY : y.isFinite with
  | false =>
    have kept : round y = y := if_neg (Bool.eq_false_iff.mp finiteY)
    rw [kept, toNat_toUInt64_infinite numberY finiteY signY]
    exact Nat.le_of_lt_succ (UInt64.toNat_lt _)
  | true =>
    have finiteX := isFinite_of_le signX signY order finiteY
    rw [toNat_round finiteX signX, toNat_round finiteY signY]
    have values := value_le signX signY order
    exact min_le_min_left _ (Nat.floor_mono (by linarith))

end Onboard.Double
