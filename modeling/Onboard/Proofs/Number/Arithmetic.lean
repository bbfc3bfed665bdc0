import Mathlib
import Onboard.Proofs.Number.Order
import Onboard.Proofs.Number.Rounding

/-! How large the results of operations on doubles can be, by their exponent fields. The operations round what they
compute from unpacked numbers, and rounding adds at most one to the exponent. Only products come close to the greatest
number, where the last bits count too. -/

namespace Onboard.Double
open Float.Model (Format UnpackedFloat totalExponent)
open Float.Model.UnpackedFloat

/-- The exponent field. -/
def level (x : Float) : Nat :=
  magnitude x / 2 ^ 52

theorem level_eq (x : Float) : level x = (exponentField x.toModel.toBits).toNat :=
  (toNat_exponentField x.toModel.toBits).symm

/-- A finite number with an exponent up to `k`. -/
def Reaches (k : Int) : UnpackedFloat → Prop
  | .finite _ _ exponent _ => exponent ≤ k
  | .zero _ => True
  | .infinity _ | .notANumber => False

theorem exponentField_pack (sign : Sign) {coefficient : Nat} {exponent : Int} (positive : 0 < coefficient) :
    (@unpackExponent Format.binary64
      (UnpackedFloat.pack Format.binary64 (.finite sign coefficient exponent positive))).toNat ≤
      (exponent + 1075).toNat := by
  unfold UnpackedFloat.pack
  dsimp only
  split
  · next large =>
    simp only [packedInfinity, unpackExponent_packComponents]
    change 2 ^ 11 ≤ (exponent + 1023 + 52).toNat + 1 at large
    change 2047 ≤ _
    omega
  · split
    · rw [unpackExponent_packComponents, BitVec.toNat_ofNat]
      refine (Nat.mod_le _ _).trans ?_
      change (exponent + 1023 + 52).toNat ≤ _
      omega
    · rw [unpackExponent_packComponents]
      exact Nat.zero_le _

theorem Reaches.level_pack {u : UnpackedFloat} {k : Int} (reaches : Reaches k u) :
    level ⟨.pack u⟩ ≤ (k + 1075).toNat := by
  rw [level_eq]
  change (@unpackExponent Format.binary64 (UnpackedFloat.pack Format.binary64 u)).toNat ≤ _
  cases u with
  | finite sign coefficient exponent positive =>
    refine (exponentField_pack sign positive).trans (Int.toNat_le_toNat ?_)
    exact Int.add_le_add_right reaches 1075
  | zero sign =>
    simp only [UnpackedFloat.pack, packedZero, unpackExponent_packComponents]
    exact Nat.zero_le _
  | infinity sign => exact reaches.elim
  | notANumber => exact reaches.elim

theorem isFinite_iff {x : Float} : x.isFinite = true ↔ level x < 2047 := by
  have unpacked := unpacks x
  change x.toModel.unpack.isFinite = true ↔ magnitude x / 2 ^ 52 < 2047
  generalize x.toModel.unpack = u at *
  cases unpacked with
  | infinity top | notANumber top => exact ⟨nofun, fun less => absurd top (Nat.ne_of_lt less)⟩
  | zero bottom | subnormal _ bottom => exact ⟨fun _ => by omega, fun _ => rfl⟩
  | normal _ _ _ top => exact ⟨fun _ => top, fun _ => rfl⟩

theorem mantissa_shiftRight (em : ExtendedMantissa) (k : Nat) : (em >>> k).mantissa = em.mantissa / 2 ^ k := by
  induction k with
  | zero => exact (Nat.div_one _).symm
  | succ k ih =>
    change (em >>> k).mantissa / 2 = _
    rw [ih, Nat.div_div_eq_div_mul, Nat.pow_succ]

theorem roundedMantissa_le (em : ExtendedMantissa) : em.roundedMantissa ≤ em.mantissa + 1 := by
  rcases em with ⟨mantissa, _ | _, _ | _⟩ <;>
    simp only [ExtendedMantissa.roundedMantissa, ExtendedMantissa.accuracy, Accuracy.roundToNearestEven] <;> omega

theorem mantissa_ofMantissaAndAccuracy (m : Nat) (accuracy : Accuracy) :
    (ExtendedMantissa.ofMantissaAndAccuracy m accuracy).mantissa = m := by
  rcases accuracy with _ | _ | _ | _ <;> rfl

theorem targetExponent_spec (total : Int) :
    -1074 ≤ Format.binary64.targetExponent total ∧ total - 53 ≤ Format.binary64.targetExponent total ∧
      (Format.binary64.targetExponent total = -1074 ∨ Format.binary64.targetExponent total = total - 53) := by
  unfold Format.targetExponent
  change -1074 ≤ Max.max (total - 53) (-1074) ∧ _ ≤ Max.max (total - 53) (-1074) ∧
    (Max.max (total - 53) (-1074) = _ ∨ Max.max (total - 53) (-1074) = _)
  omega

theorem log2_lt_succ {m b : Nat} (bound : m < 2 ^ (b + 1)) : m.log2 < b + 1 := by
  rcases Nat.eq_zero_or_pos m with rfl | some
  · exact b.succ_pos
  · exact (Nat.log2_lt some.ne').mpr bound

theorem shiftToTargetExponent_eq (m : Nat) (e : Int) (accuracy : Accuracy) : ∃ shift : Nat,
    shift = (Format.binary64.targetExponent (totalExponent m e) - e).toNat ∧
    (shiftToTargetExponent Format.binary64 m e accuracy).1.mantissa = m / 2 ^ shift ∧
    (shiftToTargetExponent Format.binary64 m e accuracy).2 = e + shift := by
  refine ⟨_, rfl, ?_, rfl⟩
  change (ExtendedMantissa.ofMantissaAndAccuracy m accuracy >>>
    (Format.binary64.targetExponent (totalExponent m e) - e).toNat).mantissa = _
  rw [mantissa_shiftRight, mantissa_ofMantissaAndAccuracy]

/-- The second shift only takes back a carry. -/
theorem reaches_of_rounded (sign : Sign) {m : Nat} {e k : Int} {accuracy : Accuracy}
    (first : (shiftToTargetExponent Format.binary64 m e accuracy).2 ≤ k)
    (rounded : (shiftToTargetExponent Format.binary64 m e accuracy).1.roundedMantissa.log2 +
      (shiftToTargetExponent Format.binary64 m e accuracy).2 - 52 ≤ k) (bottom : -1074 ≤ k) :
    Reaches k (roundWithAccuracy Format.binary64 sign m e accuracy) := by
  unfold roundWithAccuracy
  dsimp only
  generalize (shiftToTargetExponent Format.binary64 m e accuracy).1.roundedMantissa = r at *
  generalize (shiftToTargetExponent Format.binary64 m e accuracy).2 = d at *
  split
  · trivial
  · obtain ⟨shift, shifted, -, exponent⟩ := shiftToTargetExponent_eq r d .exact
    have target := targetExponent_spec (totalExponent r d)
    unfold totalExponent at *
    dsimp only [Reaches]
    omega

theorem reaches_round (sign : Sign) {m b : Nat} {e k : Int} (accuracy : Accuracy) (bound : m < 2 ^ b)
    (top : b + e - 52 ≤ k) (bottom : -1074 ≤ k) (least : e ≤ k) :
    Reaches k (roundWithAccuracy Format.binary64 sign m e accuracy) := by
  obtain ⟨shift, shifted, mantissa, exponent⟩ := shiftToTargetExponent_eq m e accuracy
  have target := targetExponent_spec (totalExponent m e)
  have log : m.log2 < b ∨ m.log2 = 0 := by
    rcases Nat.eq_zero_or_pos m with rfl | some
    · exact .inr rfl
    · exact .inl ((Nat.log2_lt some.ne').mpr bound)
  -- A mantissa that rounding fills up has one bit more.
  have rounded : (shiftToTargetExponent Format.binary64 m e accuracy).1.roundedMantissa ≤ 2 ^ (b - shift) := by
    refine (roundedMantissa_le _).trans ?_
    rw [mantissa, Nat.succ_le_iff]
    refine (Nat.div_lt_iff_lt_mul (Nat.two_pow_pos shift)).mpr ?_
    rw [← Nat.pow_add]
    exact bound.trans_le (Nat.pow_le_pow_right Nat.zero_lt_two (by omega))
  have log' := log2_lt_succ (rounded.trans_lt (Nat.pow_lt_pow_succ Nat.one_lt_two))
  unfold totalExponent at *
  refine reaches_of_rounded sign ?_ ?_ bottom <;> omega

section Operations
variable {x y : Float} {a b c : Nat}

/-- What a finite number unpacks to. -/
inductive Bounded (k : Int) : UnpackedFloat → Prop where
  | zero (sign : Sign) : Bounded k (.zero sign)
  | finite (sign : Sign) {coefficient : Nat} {exponent : Int} (positive : 0 < coefficient) :
      coefficient < 2 ^ 53 → exponent ≤ k → Bounded k (.finite sign coefficient exponent positive)

theorem bounded (bound : level x ≤ a) (some : 1 ≤ a) (finite : a < 2047) : Bounded (a - 1075) x.toModel.unpack := by
  have unpacked := unpacks x
  change magnitude x / 2 ^ 52 ≤ a at bound
  generalize x.toModel.unpack = u at *
  have fraction : magnitude x % 2 ^ 52 < 2 ^ 52 := Nat.mod_lt _ (by decide)
  cases unpacked with
  | infinity top | notANumber top => omega
  | zero => exact .zero _
  | subnormal positive bottom => exact .finite _ _ (by omega) (by omega)
  | normal positive implicit => exact .finite _ _ (by omega) (by omega)

theorem unpack_normal (some : 1 ≤ level x) (finite : level x < 2047) : ∃ sign coefficient positive,
    x.toModel.unpack = .finite sign coefficient (level x - 1075) positive ∧ 2 ^ 52 ≤ coefficient ∧
      coefficient < 2 ^ 53 := by
  have unpacked := unpacks x
  have fraction : magnitude x % 2 ^ 52 < 2 ^ 52 := Nat.mod_lt _ (by decide)
  unfold level at *
  generalize x.toModel.unpack = u at *
  cases unpacked with
  | infinity top | notANumber top => omega
  | zero bottom | subnormal positive bottom => omega
  | normal positive implicit => exact ⟨_, _, positive, rfl, by omega, by omega⟩

theorem level_mul (boundX : level x ≤ a) (boundY : level y ≤ b) (someX : 1 ≤ a) (someY : 1 ≤ b) (finiteX : a < 2047)
    (finiteY : b < 2047) (some : 1 ≤ c) (sum : a + b ≤ c + 1021) : level (x * y) ≤ c := by
  have left := bounded boundX someX finiteX
  have right := bounded boundY someY finiteY
  have reaches : Reaches (c - 1075) (mul Format.binary64 x.toModel.unpack y.toModel.unpack) := by
    generalize x.toModel.unpack = u at *
    generalize y.toModel.unpack = v at *
    cases left with
    | zero => cases right <;> trivial
    | finite _ _ small =>
      cases right with
      | zero => trivial
      | finite _ _ smaller =>
        have product : _ < 2 ^ 53 * 2 ^ 53 := Nat.mul_lt_mul'' small smaller
        rw [← Nat.pow_add] at product
        exact reaches_round _ _ product (by omega) (by omega) (by omega)
  refine reaches.level_pack.trans ?_
  omega

/-- A quotient has one bit more than the difference in length of its terms, or as many. -/
theorem reaches_divCore (sign : Sign) {m n : Nat} {d e k : Int} (some : 0 < m) (small : m < 2 ^ 53)
    (least : 2 ^ 52 ≤ n) (greatest : n < 2 ^ 53) (top : d - e - 51 ≤ k) (bottom : -1074 ≤ k) :
    Reaches k (roundWithAccuracy Format.binary64 sign (divCore Format.binary64 m d n e).1
      (divCore Format.binary64 m d n e).2.1 (divCore Format.binary64 m d n e).2.2) := by
  have target := targetExponent_spec (totalExponent m d - totalExponent n e)
  have logM : m.log2 < 53 := (Nat.log2_lt some.ne').mpr small
  have logN : n.log2 = 52 := (Nat.log2_eq_iff (by omega)).mpr ⟨least, greatest⟩
  have exponent : (divCore Format.binary64 m d n e).2.1 =
      Min.min (d - e) (Format.binary64.targetExponent (totalExponent m d - totalExponent n e)) := rfl
  have quotient : (divCore Format.binary64 m d n e).1 <
      2 ^ ((d - e - (divCore Format.binary64 m d n e).2.1).toNat + 1) := by
    change m <<< (d - e - (divCore Format.binary64 m d n e).2.1).toNat / n < _
    generalize (d - e - (divCore Format.binary64 m d n e).2.1).toNat = shift
    refine (Nat.div_lt_iff_lt_mul (by omega)).mpr ?_
    calc
      m <<< shift = m * 2 ^ shift := Nat.shiftLeft_eq m shift
      _ < 2 ^ 53 * 2 ^ shift := Nat.mul_lt_mul_of_pos_right small (Nat.two_pow_pos shift)
      _ = 2 ^ (shift + 1) * 2 ^ 52 := by rw [← Nat.pow_add, ← Nat.pow_add]; congr 1; omega
      _ ≤ 2 ^ (shift + 1) * n := Nat.mul_le_mul_left _ least
  unfold totalExponent at *
  refine reaches_round sign _ quotient ?_ bottom ?_ <;> omega

theorem level_div (boundX : level x ≤ a) (boundY : b ≤ level y) (someX : 1 ≤ a) (someY : 1 ≤ b) (finiteX : a < 2047)
    (finiteY : level y < 2047) (some : 1 ≤ c) (quotient : a + 1024 ≤ c + b) : level (x / y) ≤ c := by
  have left := bounded boundX someX finiteX
  obtain ⟨_, n, positive, right, least, greatest⟩ := unpack_normal (someY.trans boundY) finiteY
  have reaches : Reaches (c - 1075) (div Format.binary64 x.toModel.unpack y.toModel.unpack) := by
    rw [right]
    generalize x.toModel.unpack = u at *
    cases left with
    | zero => trivial
    | finite _ positive small low =>
      exact reaches_divCore _ positive small least greatest (by omega) (by omega)
  refine reaches.level_pack.trans ?_
  omega

theorem reaches_roundExact (sign : Sign) {m b : Nat} {e k : Int} (bound : m < 2 ^ b)
    (top : b + e - 52 ≤ k) (bottom : -1074 ≤ k) (least : e ≤ k) :
    Reaches k (UnpackedFloat.round Format.binary64 sign m e) := by
  have wider : m <<< (e - Format.binary64.targetExponent (totalExponent m e)).toNat <
      2 ^ (b + (e - Format.binary64.targetExponent (totalExponent m e)).toNat) := by
    rw [Nat.shiftLeft_eq, Nat.pow_add]
    exact Nat.mul_lt_mul_of_pos_right bound (Nat.two_pow_pos _)
  exact reaches_round sign .exact wider (by omega) bottom (by omega)

theorem reaches_normalize {m : Int} {b : Nat} {e k : Int} (zeroSign : Sign) (bound : m.natAbs < 2 ^ b)
    (top : b + e - 52 ≤ k) (bottom : -1074 ≤ k) (least : e ≤ k) :
    Reaches k (UnpackedFloat.normalize Format.binary64 m e zeroSign) := by
  have negative : (-m).toNat ≤ m.natAbs := by omega
  have positive : m.toNat ≤ m.natAbs := by omega
  unfold UnpackedFloat.normalize
  split
  · exact reaches_roundExact _ (negative.trans_lt bound) top bottom least
  · trivial
  · exact reaches_roundExact _ (positive.trans_lt bound) top bottom least

theorem natAbs_apply (sign : Sign) (m : Nat) : (sign.apply (m : Int)).natAbs = m := by
  cases sign <;> simp [Sign.apply]

theorem level_add (boundX : level x ≤ a) (boundY : level y ≤ a) (some : 1 ≤ a) (finite : a < 2047) :
    level (x + y) ≤ a + 2 := by
  have left := bounded boundX some finite
  have right := bounded boundY some finite
  have reaches : Reaches (a + 2 - 1075) (add Format.binary64 x.toModel.unpack y.toModel.unpack) := by
    generalize x.toModel.unpack = u at *
    generalize y.toModel.unpack = v at *
    cases left with
    | zero s =>
      cases right with
      | zero t => cases s <;> cases t <;> trivial
      | finite _ _ _ low => exact low.trans (by omega)
    | @finite s m d mpos smallM lowM =>
      cases right with
      | zero t => exact lowM.trans (by omega)
      | @finite t n e npos smallN lowN =>
        have aligned : ∀ {m : Nat} {f : Int}, m < 2 ^ 53 → f ≤ a - 1075 →
            m <<< (f - Min.min d e).toNat < 2 ^ (53 + (a - 1075 - Min.min d e).toNat) := by
          intro m f small low
          rw [Nat.shiftLeft_eq, Nat.pow_add]
          exact Nat.mul_lt_mul_of_lt_of_le small (Nat.pow_le_pow_right Nat.zero_lt_two (by omega))
            (Nat.two_pow_pos _)
        refine reaches_normalize .positive (b := 53 + (a - 1075 - Min.min d e).toNat + 1) ?_ (by omega) (by omega)
          (by omega)
        refine (Int.natAbs_add_le _ _).trans_lt ?_
        rw [natAbs_apply, natAbs_apply, Nat.pow_succ, Nat.mul_two]
        exact Nat.add_lt_add (aligned smallM lowM) (aligned smallN lowN)
  refine reaches.level_pack.trans ?_
  omega

theorem level_neg (bound : level x ≤ a) (some : 1 ≤ a) (finite : a < 2047) : level (-x) ≤ a := by
  have unpacked := bounded bound some finite
  have reaches : Reaches (a - 1075) x.toModel.unpack.neg := by
    generalize x.toModel.unpack = u at *
    cases unpacked with
    | zero => trivial
    | finite _ _ _ low => exact low
  refine reaches.level_pack.trans ?_
  omega

end Operations

theorem magnitude_pack (u : UnpackedFloat) : magnitude ⟨.pack u⟩ =
    (@unpackExponent Format.binary64 (UnpackedFloat.pack Format.binary64 u)).toNat * 2 ^ 52 +
      (@unpackMantissa Format.binary64 (UnpackedFloat.pack Format.binary64 u)).toNat := by
  have exponent := toNat_exponentField (Float.Model.pack u).toBits
  have fraction := toNat_fractionField (Float.Model.pack u).toBits
  change (@unpackExponent Format.binary64 (UnpackedFloat.pack Format.binary64 u)).toNat = _ at exponent
  change (@unpackMantissa Format.binary64 (UnpackedFloat.pack Format.binary64 u)).toNat = _ at fraction
  rw [exponent, fraction]
  change (Float.Model.pack u).toBits.toNat % 2 ^ 63 = _
  omega

theorem magnitude_finite (sign : Sign) {coefficient : Nat} (exponent : Int) (positive : 0 < coefficient)
    (small : coefficient < 2 ^ 53) (least : -1074 ≤ exponent) (low : exponent ≤ 971)
    (canonical : exponent = -1074 ∨ 2 ^ 52 ≤ coefficient) :
    (magnitude ⟨.pack (.finite sign coefficient exponent positive)⟩ : Int) =
      (exponent + 1074) * 2 ^ 52 + coefficient := by
  rw [magnitude_pack]
  unfold UnpackedFloat.pack
  dsimp only
  rw [if_neg (by change ¬ 2 ^ 11 ≤ (exponent + 1023 + 52).toNat + 1; omega)]
  by_cases normal : 2 ^ 52 ≤ coefficient
  · have log : coefficient.log2 = 52 := (Nat.log2_eq_iff positive.ne').mpr ⟨normal, small⟩
    rw [if_pos (by rw [log]; rfl), unpackExponent_packComponents, unpackMantissa_packComponents, BitVec.toNat_ofNat,
      BitVec.toNat_ofNat]
    change (((exponent + 1023 + 52).toNat % 2 ^ 11 * 2 ^ 52 + coefficient % 2 ^ 52 : Nat) : Int) = _
    omega
  · have log : coefficient.log2 < 52 := (Nat.log2_lt positive.ne').mpr (Nat.not_le.mp normal)
    rw [if_neg (by change ¬ coefficient.log2 + 1 = 53; omega), unpackExponent_packComponents,
      unpackMantissa_packComponents, BitVec.toNat_ofNat]
    change ((0 * 2 ^ 52 + coefficient % 2 ^ 52 : Nat) : Int) = _
    omega

theorem Unpacks.magnitude_eq {sign : Sign} {exponent fraction : Nat} {u : UnpackedFloat}
    (unpacked : Unpacks sign exponent fraction u) (bound : fraction < 2 ^ 52) (finite : exponent < 2047) :
    magnitude ⟨.pack u⟩ = exponent * 2 ^ 52 + fraction := by
  cases unpacked with
  | infinity top | notANumber top => omega
  | zero bottom none =>
    rw [magnitude_pack]
    simp only [UnpackedFloat.pack, packedZero, unpackExponent_packComponents, unpackMantissa_packComponents, bottom,
      none]
    rfl
  | subnormal positive bottom =>
    have same := magnitude_finite sign (exponent - 1075 + 1) positive (by omega) (by omega) (by omega)
      (.inl (by omega))
    omega
  | normal positive implicit above =>
    have same := magnitude_finite sign (exponent - 1075) positive (by omega) (by omega) (by omega)
      (.inr (by omega))
    omega

/-- A double is told by its sign and its magnitude. -/
theorem eq_of_parts {x y : Float} (signs : isNegative x = isNegative y) (magnitudes : magnitude x = magnitude y) :
    x = y := by
  obtain ⟨⟨bitsX, validX⟩⟩ := x
  obtain ⟨⟨bitsY, validY⟩⟩ := y
  have same : bitsX = bitsY := by
    change decide (2 ^ 63 ≤ bitsX.toNat) = decide (2 ^ 63 ≤ bitsY.toNat) at signs
    change bitsX.toNat % 2 ^ 63 = bitsY.toNat % 2 ^ 63 at magnitudes
    have boundX := bitsX.toNat_lt
    have boundY := bitsY.toNat_lt
    rw [decide_eq_decide] at signs
    exact UInt64.toNat_inj.mp (by omega)
  cases same
  rfl

theorem toNat_packComponents (sign : Sign) (exponent : BitVec 11) (fraction : BitVec 52) :
    (packComponents Format.binary64 sign exponent fraction).toNat =
      sign.toBitVec.toNat * 2 ^ 63 + exponent.toNat * 2 ^ 52 + fraction.toNat := by
  have upper : (sign.toBitVec ++ exponent).toNat = sign.toBitVec.toNat * 2 ^ 11 + exponent.toNat := by
    rw [BitVec.toNat_append, ← Nat.shiftLeft_add_eq_or_of_lt exponent.isLt, Nat.shiftLeft_eq]
  change (sign.toBitVec ++ exponent ++ fraction).toNat = _
  rw [BitVec.toNat_append, ← Nat.shiftLeft_add_eq_or_of_lt fraction.isLt, Nat.shiftLeft_eq, upper]
  ring

theorem isNegative_packed {sign : Sign} {exponent : BitVec 11} {fraction : BitVec 52} {x : Float}
    (packed : x.toModel.toBits.toBitVec = packComponents Format.binary64 sign exponent fraction) :
    isNegative x = (sign == .negative) := by
  have value := toNat_packComponents sign exponent fraction
  rw [← packed] at value
  have boundE := exponent.isLt
  have boundF := fraction.isLt
  change decide (2 ^ 63 ≤ x.toModel.toBits.toBitVec.toNat) = _
  rw [value]
  cases sign with
  | negative => exact decide_eq_true (by change 2 ^ 63 ≤ 1 * 2 ^ 63 + _ + _; omega)
  | positive => exact decide_eq_false (by change ¬ 2 ^ 63 ≤ 0 * 2 ^ 63 + _ + _; omega)

theorem Unpacks.isNegative_eq {sign : Sign} {exponent fraction : Nat} {u : UnpackedFloat}
    (unpacked : Unpacks sign exponent fraction u) (finite : exponent < 2047) :
    isNegative ⟨.pack u⟩ = (sign == .negative) := by
  have packed : ∃ e f, UnpackedFloat.pack Format.binary64 u = packComponents Format.binary64 sign e f := by
    cases unpacked with
    | infinity top | notANumber top => omega
    | zero => exact ⟨_, _, rfl⟩
    | subnormal | normal =>
      unfold UnpackedFloat.pack
      dsimp only
      split_ifs <;> exact ⟨_, _, rfl⟩
  obtain ⟨e, f, packed⟩ := packed
  exact isNegative_packed packed

theorem unpacks_ofParts (negative : Bool) {m : Nat} (finite : m < 2047 * 2 ^ 52) :
    ∃ u, Unpacks (if negative then .negative else .positive) (m / 2 ^ 52) (m % 2 ^ 52) u ∧
      ofParts negative m = ⟨.pack u⟩ := by
  have whole : (UInt64.ofNat (m + if negative then 0x8000000000000000 else 0)).toNat =
      m + if negative then 0x8000000000000000 else 0 := by
    rw [UInt64.toNat_ofNat', Nat.mod_eq_of_lt]
    split <;> omega
  have unpacked := unpacks_fields (UInt64.ofNat (m + if negative then 0x8000000000000000 else 0))
  rw [toNat_exponentField, toNat_fractionField, ofBitVec_signField, whole] at unpacked
  have low : (m + if negative then 0x8000000000000000 else 0) % 2 ^ 63 = m := by
    split <;> omega
  have sign : (2 ^ 63 ≤ m + if negative then 0x8000000000000000 else 0) ↔ negative = true := by
    cases negative with
    | false => exact iff_of_false (by simp; omega) nofun
    | true => exact iff_of_true (by simp) rfl
  rw [low, if_congr sign rfl rfl] at unpacked
  exact ⟨_, unpacked, rfl⟩

theorem magnitude_ofParts (negative : Bool) {m : Nat} (finite : m < 2047 * 2 ^ 52) :
    magnitude (ofParts negative m) = m := by
  obtain ⟨u, unpacked, same⟩ := unpacks_ofParts negative finite
  rw [same, unpacked.magnitude_eq (Nat.mod_lt _ (by decide)) (by omega)]
  omega

theorem isNegative_ofParts (negative : Bool) {m : Nat} (finite : m < 2047 * 2 ^ 52) :
    isNegative (ofParts negative m) = negative := by
  obtain ⟨u, unpacked, same⟩ := unpacks_ofParts negative finite
  rw [same, unpacked.isNegative_eq (by omega)]
  cases negative <;> rfl

theorem ofParts_magnitude {x : Float} (finite : x.isFinite = true) : ofParts (isNegative x) (magnitude x) = x := by
  rw [isFinite_iff, level, Nat.div_lt_iff_lt_mul (by decide)] at finite
  exact eq_of_parts (isNegative_ofParts _ finite) (magnitude_ofParts _ finite)

theorem roundedMantissa_shiftRightOne_le (em : ExtendedMantissa) :
    em.shiftRightOne.roundedMantissa ≤ (em.mantissa + 1) / 2 := by
  have parity := Nat.mod_two_eq_zero_or_one em.mantissa
  unfold ExtendedMantissa.shiftRightOne
  rcases parity with even | odd
  · cases em.roundBit || em.stickyBit <;>
      simp only [ExtendedMantissa.roundedMantissa, ExtendedMantissa.accuracy, Accuracy.roundToNearestEven, even,
        bne_self_eq_false] <;>
      omega
  · have bit : (em.mantissa % 2 != 0) = true := by rw [odd]; rfl
    cases em.roundBit || em.stickyBit <;>
      simp only [ExtendedMantissa.roundedMantissa, ExtendedMantissa.accuracy, Accuracy.roundToNearestEven, bit] <;>
      omega

theorem log2_add_lt {m : Nat} {e : Int} (some : 0 < m) (bound : (m * 2 ^ e : ℚ) < BinaryFormat.overflow) :
    (m.log2 : Int) + e < 1024 := by
  rw [← two_zpow_lt_iff, two_zpow_add]
  exact (mul_le_mul_of_nonneg_right (two_pow_log2_le some) (two_zpow_pos e).le).trans_lt
    (bound.trans BinaryFormat.overflow_lt)

/-- An exact product below the bound keeps below the infinite exponent. -/
theorem reaches_product (sign : Sign) {m : Nat} {e : Int} (some : 0 < m) (long : e < 971)
    (bound : (m * 2 ^ e : ℚ) < BinaryFormat.overflow) :
    Reaches 971 (roundWithAccuracy Format.binary64 sign m e .exact) := by
  have log := log2_add_lt some bound
  by_cases below : (m.log2 : Int) + e < 1023
  · exact reaches_round sign .exact Nat.lt_log2_self (by omega) (by decide) (by omega)
  · have target := targetExponent_spec (totalExponent m e)
    obtain ⟨shift, range⟩ := Int.eq_ofNat_of_zero_le (show 0 ≤ 970 - e by omega)
    have shifted : (Format.binary64.targetExponent (totalExponent m e) - e).toNat = shift + 1 := by
      unfold totalExponent at *
      omega
    have high : m < 18014398509481983 * 2 ^ shift := by
      have exact : (m : ℚ) < (2 ^ 54 - 1) * 2 ^ (shift : ℤ) := by
        rw [← mul_lt_mul_iff_left₀ (two_zpow_pos e), mul_assoc, ← two_zpow_add]
        refine bound.trans_eq ?_
        rw [BinaryFormat.overflow]
        congr 2
        omega
      norm_num at exact
      exact_mod_cast exact
    have rounded : (shiftToTargetExponent Format.binary64 m e .exact).1.roundedMantissa < 2 ^ 53 := by
      have twice : m / 2 ^ shift < 18014398509481983 := (Nat.div_lt_iff_lt_mul (Nat.two_pow_pos shift)).mpr high
      have halved := roundedMantissa_shiftRightOne_le (ExtendedMantissa.ofMantissaAndAccuracy m .exact >>> shift)
      rw [mantissa_shiftRight, mantissa_ofMantissaAndAccuracy] at halved
      change (ExtendedMantissa.ofMantissaAndAccuracy m .exact >>>
        (Format.binary64.targetExponent (totalExponent m e) - e).toNat).roundedMantissa < _
      rw [shifted]
      change ((ExtendedMantissa.ofMantissaAndAccuracy m .exact >>> shift).shiftRightOne).roundedMantissa < _
      omega
    have log' := log2_lt_succ rounded
    obtain ⟨_, again, -, exponent⟩ := shiftToTargetExponent_eq m e .exact
    refine reaches_of_rounded sign ?_ ?_ (by decide) <;> omega

theorem finite_congr {sign : Sign} {m n : Nat} {d e : Int} {positive : 0 < m} (coefficients : m = n)
    (exponents : d = e) : UnpackedFloat.finite sign m d positive = .finite sign n e (coefficients ▸ positive) := by
  subst coefficients exponents
  rfl

theorem unpack_scaled {x : Float} (finite : level x < 2047) :
    ((scaled x).coefficient = 0 ∧ x.toModel.unpack = .zero (signOf x)) ∨
      ∃ positive, x.toModel.unpack = .finite (signOf x) (scaled x).coefficient (scaled x).exponent positive := by
  have unpacked := unpacks x
  unfold level at finite
  obtain ⟨k, exponent, magnitude, small, normal⟩ := BinaryFormat.double.decoded (magnitude x)
  change (scaled x).exponent = _ at exponent
  change _ = _ + (scaled x).coefficient at magnitude
  change (scaled x).coefficient < _ at small
  change _ ∨ _ ≤ (scaled x).coefficient at normal
  rw [BinaryFormat.precision_double] at *
  rw [BinaryFormat.minExponent_double] at *
  generalize x.toModel.unpack = u at *
  cases unpacked with
  | infinity top | notANumber top => omega
  | zero bottom none =>
    exact .inl ⟨by omega, rfl⟩
  | subnormal positive bottom =>
    exact .inr ⟨by omega, finite_congr (by omega) (by omega)⟩
  | normal positive implicit =>
    exact .inr ⟨by omega, finite_congr (by omega) (by omega)⟩

/-- Only at the least exponent may a finite number have fewer bits. -/
theorem scaled_spec {x : Float} (finite : level x < 2047) :
    (scaled x).coefficient < 2 ^ 53 ∧ -1074 ≤ (scaled x).exponent ∧ (scaled x).exponent ≤ 971 ∧
      ((scaled x).exponent = -1074 ∨ 2 ^ 52 ≤ (scaled x).coefficient) := by
  unfold level at finite
  obtain ⟨k, exponent, magnitude, small, normal⟩ := BinaryFormat.double.decoded (magnitude x)
  change (scaled x).exponent = _ at exponent
  change _ = _ + (scaled x).coefficient at magnitude
  change (scaled x).coefficient < _ at small
  change _ ∨ _ ≤ (scaled x).coefficient at normal
  rw [BinaryFormat.precision_double] at *
  rw [BinaryFormat.minExponent_double] at *
  omega

theorem isFinite_mul {x y : Float} (finiteX : x.isFinite = true) (finiteY : y.isFinite = true)
    (bound : (scaled x).value * (scaled y).value < BinaryFormat.overflow) : (x * y).isFinite = true := by
  rw [isFinite_iff] at *
  have reaches : Reaches 971 (mul Format.binary64 x.toModel.unpack y.toModel.unpack) := by
    rcases unpack_scaled finiteX with ⟨-, zeroX⟩ | ⟨positiveX, unpackX⟩ <;>
      rcases unpack_scaled finiteY with ⟨-, zeroY⟩ | ⟨positiveY, unpackY⟩
    · rw [zeroX, zeroY]
      trivial
    · rw [zeroX, unpackY]
      trivial
    · rw [unpackX, zeroY]
      trivial
    · obtain ⟨-, -, topX, normalX⟩ := scaled_spec finiteX
      obtain ⟨-, -, topY, normalY⟩ := scaled_spec finiteY
      rw [unpackX, unpackY]
      have exact : (((scaled x).coefficient * (scaled y).coefficient : Nat) : ℚ) *
          2 ^ ((scaled x).exponent + (scaled y).exponent) < BinaryFormat.overflow := by
        refine lt_of_eq_of_lt ?_ bound
        rw [Scaled.value, Scaled.value, two_zpow_add, Nat.cast_mul]
        ring
      have some := Nat.mul_pos positiveX positiveY
      refine reaches_product _ some ?_ exact
      -- Two numbers with all their bits are far from so large an exponent.
      have log := log2_add_lt some exact
      rcases normalX with least | fullX
      · omega
      · rcases normalY with least | fullY
        · omega
        · have long : 104 ≤ ((scaled x).coefficient * (scaled y).coefficient).log2 := by
            rw [Nat.le_log2 some.ne', show 2 ^ 104 = 2 ^ 52 * 2 ^ 52 by rfl]
            exact Nat.mul_le_mul fullX fullY
          omega
  exact reaches.level_pack.trans_lt (by decide)

end Onboard.Double
