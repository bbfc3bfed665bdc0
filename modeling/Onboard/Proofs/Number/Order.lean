import Mathlib
import Onboard.Number.Double

/-! The order of doubles. A number has a `place`, its magnitude with its sign, and two numbers compare as their
places do; a not-a-number compares with nothing. The comparison itself works on unpacked values, by exponents first,
which is the order of magnitudes because a coefficient that is not normal has the least exponent. -/

namespace Onboard.Double
open Float.Model (Format UnpackedFloat)
open Float.Model.UnpackedFloat

/-- Both zeros stand at nought. -/
def place (x : Float) : Int :=
  if isNegative x then -(magnitude x : Int) else magnitude x

abbrev fractionField (bits : UInt64) : BitVec 52 := @unpackMantissa Format.binary64 bits.toBitVec

abbrev exponentField (bits : UInt64) : BitVec 11 := @unpackExponent Format.binary64 bits.toBitVec

abbrev signField (bits : UInt64) : BitVec 1 := @unpackSign Format.binary64 bits.toBitVec

section Fields
variable (bits : UInt64)

theorem toNat_fractionField : (fractionField bits).toNat = bits.toNat % 2 ^ 63 % 2 ^ 52 := by
  change bits.toNat % 2 ^ 52 = _
  omega

theorem toNat_exponentField : (exponentField bits).toNat = bits.toNat % 2 ^ 63 / 2 ^ 52 := by
  change (bits.toNat >>> 52) % 2 ^ 11 = _
  rw [Nat.shiftRight_eq_div_pow]
  omega

theorem toNat_signField : (signField bits).toNat = bits.toNat / 2 ^ 63 := by
  have bound := bits.toNat_lt
  change (bits.toNat >>> 63) % 2 = _
  rw [Nat.shiftRight_eq_div_pow]
  omega

theorem toNat_implicit_append : (1#1 ++ fractionField bits).toNat = 2 ^ 52 + (fractionField bits).toNat := by
  rw [BitVec.toNat_append, ← Nat.shiftLeft_add_eq_or_of_lt (BitVec.isLt _)]
  rfl

theorem ofBitVec_signField :
    Sign.ofBitVec (signField bits) = if 2 ^ 63 ≤ bits.toNat then .negative else .positive := by
  have value := toNat_signField bits
  by_cases clear : signField bits = 0#1
  · have small : bits.toNat / 2 ^ 63 = 0 := value.symm.trans (congrArg BitVec.toNat clear)
    rw [Sign.ofBitVec, if_pos clear, if_neg (by omega)]
  · have large : bits.toNat / 2 ^ 63 ≠ 0 := fun h => clear (BitVec.eq_of_toNat_eq (value.trans h))
    rw [Sign.ofBitVec, if_neg clear, if_pos (by omega)]

end Fields

def signOf (x : Float) : Sign :=
  if isNegative x then .negative else .positive

/-- What the fields of a double unpack to. -/
inductive Unpacks (sign : Sign) (exponent fraction : Nat) : UnpackedFloat → Prop where
  | infinity : exponent = 2047 → fraction = 0 → Unpacks sign exponent fraction (.infinity sign)
  | notANumber : exponent = 2047 → fraction ≠ 0 → Unpacks sign exponent fraction .notANumber
  | zero : exponent = 0 → fraction = 0 → Unpacks sign exponent fraction (.zero sign)
  | subnormal (positive : 0 < fraction) : exponent = 0 →
      Unpacks sign exponent fraction (.finite sign fraction (exponent - 1075 + 1) positive)
  | normal {coefficient : Nat} (positive : 0 < coefficient) : coefficient = 2 ^ 52 + fraction →
      0 < exponent → exponent < 2047 →
      Unpacks sign exponent fraction (.finite sign coefficient (exponent - 1075) positive)

theorem unpacks_fields (bits : UInt64) : Unpacks (Sign.ofBitVec (signField bits)) (exponentField bits).toNat
    (fractionField bits).toNat (unpack Format.binary64 bits.toBitVec) := by
  unfold unpack
  dsimp only
  split
  · next all =>
    have top := congrArg BitVec.toNat all
    split
    · next none => exact .infinity top (congrArg BitVec.toNat none)
    · next some => exact .notANumber top fun h => some (BitVec.eq_of_toNat_eq h)
  · next notAll =>
    have top : (exponentField bits).toNat ≠ 2047 := fun h => notAll (BitVec.eq_of_toNat_eq h)
    split
    · next least =>
      have bottom := congrArg BitVec.toNat least
      split
      · next none => exact .zero bottom (congrArg BitVec.toNat none)
      · next some => exact .subnormal (Nat.pos_of_ne_zero fun h => some (BitVec.eq_of_toNat_eq h)) bottom
    · next notLeast =>
      have bottom : (exponentField bits).toNat ≠ 0 := fun h => notLeast (BitVec.eq_of_toNat_eq h)
      have range : (exponentField bits).toNat < 2 ^ 11 := BitVec.isLt _
      have implicit := toNat_implicit_append bits
      have positive : 0 < (1#1 ++ fractionField bits).toNat := by omega
      exact .normal positive implicit (by omega) (by omega)

theorem unpacks (x : Float) :
    Unpacks (signOf x) (magnitude x / 2 ^ 52) (magnitude x % 2 ^ 52) x.toModel.unpack := by
  obtain ⟨⟨bits, valid⟩⟩ := x
  have sign : signOf ⟨⟨bits, valid⟩⟩ = Sign.ofBitVec (signField bits) := by
    rw [ofBitVec_signField]
    exact if_congr decide_eq_true_iff rfl rfl
  have fields := unpacks_fields bits
  rw [toNat_exponentField, toNat_fractionField, ← sign] at fields
  exact fields

def unpackedPlace : UnpackedFloat → Int
  | .infinity s => s.apply (2047 * 2 ^ 52)
  | .finite s coefficient exponent _ => s.apply ((exponent + 1074) * 2 ^ 52 + coefficient)
  | .zero _ | .notANumber => 0

/-- Only at the least exponent may a coefficient have fewer than 53 bits. -/
def IsCanonical : UnpackedFloat → Prop
  | .finite _ coefficient exponent _ =>
    coefficient < 2 ^ 53 ∧ -1074 ≤ exponent ∧ exponent < 972 ∧ (exponent = -1074 ∨ 2 ^ 52 ≤ coefficient)
  | _ => True

theorem Unpacks.isCanonical {sign : Sign} {exponent fraction : Nat} {u : UnpackedFloat}
    (unpacked : Unpacks sign exponent fraction u) (bound : fraction < 2 ^ 52) : IsCanonical u := by
  cases unpacked with
  | infinity | notANumber | zero => trivial
  | subnormal positive bottom => exact ⟨by omega, by omega, by omega, .inl (by omega)⟩
  | normal positive implicit bottom top => exact ⟨by omega, by omega, by omega, .inr (by omega)⟩

theorem Unpacks.place_eq {sign : Sign} {exponent fraction : Nat} {u : UnpackedFloat}
    (unpacked : Unpacks sign exponent fraction u) (number : u.isNaN = false) :
    unpackedPlace u = sign.apply (exponent * 2 ^ 52 + fraction) := by
  cases unpacked with
  | infinity top none => simp only [unpackedPlace, top, none]; rfl
  | notANumber top some => contradiction
  | zero bottom none => cases sign <;> simp [unpackedPlace, Sign.apply, bottom, none]
  | subnormal positive bottom =>
    simp only [unpackedPlace]
    congr 1
    omega
  | normal positive implicit bottom top =>
    simp only [unpackedPlace]
    congr 1
    omega

theorem lt_eq_compare {a b : Int} (less : a < b) : some Ordering.lt = some (compare a b) :=
  congrArg some (Int.compare_eq_lt.mpr less).symm

theorem gt_eq_compare {a b : Int} (greater : b < a) : some Ordering.gt = some (compare a b) :=
  congrArg some (Int.compare_eq_gt.mpr greater).symm

theorem compare_neg_neg (a b : Int) : compare (-a) (-b) = compare b a := by
  rw [Int.compare_eq_ite_lt, Int.compare_eq_ite_lt]
  exact if_congr (by omega) rfl (if_congr (by omega) rfl rfl)

/-- A larger exponent leaves room for any coefficient below it. -/
theorem compare_then_compare {m n : Nat} {d e : Int} (boundM : m < 2 ^ 53) (boundN : n < 2 ^ 53)
    (leastD : -1074 ≤ d) (leastE : -1074 ≤ e) (normalM : d = -1074 ∨ 2 ^ 52 ≤ m) (normalN : e = -1074 ∨ 2 ^ 52 ≤ n) :
    (compare d e).then (compare m n) = compare ((d + 1074) * 2 ^ 52 + (m : Int)) ((e + 1074) * 2 ^ 52 + n) := by
  rcases Int.lt_trichotomy d e with less | rfl | greater
  · rw [Int.compare_eq_lt.mpr less, Ordering.lt_then, eq_comm, Int.compare_eq_lt]
    omega
  · rw [Int.compare_eq_eq.mpr rfl, Ordering.eq_then]
    rcases Nat.lt_trichotomy m n with less | rfl | greater
    · rw [Nat.compare_eq_lt.mpr less, eq_comm, Int.compare_eq_lt]
      omega
    · rw [Nat.compare_eq_eq.mpr rfl, Int.compare_eq_eq.mpr rfl]
    · rw [Nat.compare_eq_gt.mpr greater, eq_comm, Int.compare_eq_gt]
      omega
  · rw [Int.compare_eq_gt.mpr greater, Ordering.gt_then, eq_comm, Int.compare_eq_gt]
    omega

theorem compare_unpacked {a b : UnpackedFloat} (canonicalA : IsCanonical a) (canonicalB : IsCanonical b)
    (numberA : a.isNaN = false) (numberB : b.isNaN = false) :
    a.compare b = some (compare (unpackedPlace a) (unpackedPlace b)) := by
  cases a <;> cases b <;> try contradiction
  case finite.finite s m d positiveM t n e positiveN =>
    obtain ⟨boundM, leastD, -, normalM⟩ := canonicalA
    obtain ⟨boundN, leastE, -, normalN⟩ := canonicalB
    have same := compare_then_compare boundM boundN leastD leastE normalM normalN
    cases s <;> cases t
    · simp only [UnpackedFloat.compare, unpackedPlace, Sign.apply, same, Int.compare_swap, compare_neg_neg]
    · refine lt_eq_compare ?_
      simp only [unpackedPlace, Sign.apply]
      omega
    · refine gt_eq_compare ?_
      simp only [unpackedPlace, Sign.apply]
      omega
    · simp only [UnpackedFloat.compare, unpackedPlace, Sign.apply, same]
  -- Numbers of different kinds are compared by their signs.
  case zero.zero => rfl
  case infinity.infinity s t => cases s <;> cases t <;> rfl
  case infinity.zero s t => cases s <;> rfl
  case zero.infinity s t => cases t <;> rfl
  case infinity.finite s t n e positive =>
    obtain ⟨bound, least, most, -⟩ := canonicalB
    cases s <;> cases t
    all_goals first | refine lt_eq_compare ?_ | refine gt_eq_compare ?_
    all_goals simp only [unpackedPlace, Sign.apply]; omega
  case finite.infinity s m d positive t =>
    obtain ⟨bound, least, most, -⟩ := canonicalA
    cases s <;> cases t
    all_goals first | refine lt_eq_compare ?_ | refine gt_eq_compare ?_
    all_goals simp only [unpackedPlace, Sign.apply]; omega
  case zero.finite s t n e positive =>
    obtain ⟨bound, least, most, -⟩ := canonicalB
    cases t
    all_goals first | refine lt_eq_compare ?_ | refine gt_eq_compare ?_
    all_goals simp only [unpackedPlace, Sign.apply]; omega
  case finite.zero s m d positive t =>
    obtain ⟨bound, least, most, -⟩ := canonicalA
    cases s
    all_goals first | refine lt_eq_compare ?_ | refine gt_eq_compare ?_
    all_goals simp only [unpackedPlace, Sign.apply]; omega

theorem isCanonical_unpack (x : Float) : IsCanonical x.toModel.unpack :=
  (unpacks x).isCanonical (Nat.mod_lt _ (by decide))

theorem unpackedPlace_unpack {x : Float} (number : x.isNaN = false) : unpackedPlace x.toModel.unpack = place x := by
  have whole : ((magnitude x / 2 ^ 52 : Nat) : Int) * 2 ^ 52 + (magnitude x % 2 ^ 52 : Nat) = magnitude x := by omega
  rw [(unpacks x).place_eq number, whole, signOf, place]
  split <;> rfl

theorem compare_eq {x y : Float} (numberX : x.isNaN = false) (numberY : y.isNaN = false) :
    x.toModel.unpack.compare y.toModel.unpack = some (compare (place x) (place y)) := by
  rw [compare_unpacked (isCanonical_unpack x) (isCanonical_unpack y) numberX numberY, unpackedPlace_unpack numberX,
    unpackedPlace_unpack numberY]

theorem lt_iff_compare {x y : Float} : x < y ↔ x.toModel.unpack.compare y.toModel.unpack = some .lt := by
  change decide (x.toModel < y.toModel) = true ↔ _
  rw [decide_eq_true_iff]
  exact beq_iff_eq

theorem le_iff_compare {x y : Float} : x ≤ y ↔ (x.toModel.unpack.compare y.toModel.unpack).any (·.isLE) = true := by
  change decide (x.toModel ≤ y.toModel) = true ↔ _
  rw [decide_eq_true_iff]
  rfl

theorem lt_iff {x y : Float} (numberX : x.isNaN = false) (numberY : y.isNaN = false) : x < y ↔ place x < place y := by
  rw [lt_iff_compare, compare_eq numberX numberY, Option.some_inj, Int.compare_eq_lt]

theorem le_iff {x y : Float} (numberX : x.isNaN = false) (numberY : y.isNaN = false) : x ≤ y ↔ place x ≤ place y := by
  rw [le_iff_compare, compare_eq numberX numberY, Option.any_some, Int.isLE_compare]

/-- What compares with something is a number. -/
theorem number_of_isSome_compare {a b : UnpackedFloat} (compared : (a.compare b).isSome = true) :
    a.isNaN = false ∧ b.isNaN = false := by
  cases a <;> cases b <;> first | contradiction | exact ⟨rfl, rfl⟩

theorem number_of_lt {x y : Float} (less : x < y) : x.isNaN = false ∧ y.isNaN = false := by
  rw [lt_iff_compare] at less
  exact number_of_isSome_compare (Option.isSome_of_eq_some less)

theorem number_of_le {x y : Float} (order : x ≤ y) : x.isNaN = false ∧ y.isNaN = false := by
  rw [le_iff_compare] at order
  exact number_of_isSome_compare (Option.isSome_of_any order)

theorem number_of_isFinite {x : Float} (finite : x.isFinite = true) : x.isNaN = false := by
  change x.toModel.unpack.isFinite = true at finite
  change x.toModel.unpack.isNaN = false
  generalize x.toModel.unpack = a at *
  cases a <;> first | contradiction | rfl

theorem lt_irrefl (x : Float) : ¬ x < x := by
  intro less
  obtain ⟨number, -⟩ := number_of_lt less
  exact Int.lt_irrefl _ ((lt_iff number number).mp less)

theorem lt_trans {x y z : Float} (first : x < y) (second : y < z) : x < z := by
  obtain ⟨numberX, numberY⟩ := number_of_lt first
  obtain ⟨-, numberZ⟩ := number_of_lt second
  exact (lt_iff numberX numberZ).mpr
    (Int.lt_trans ((lt_iff numberX numberY).mp first) ((lt_iff numberY numberZ).mp second))

theorem le_refl {x : Float} (number : x.isNaN = false) : x ≤ x :=
  (le_iff number number).mpr (Int.le_refl _)

theorem le_trans {x y z : Float} (first : x ≤ y) (second : y ≤ z) : x ≤ z := by
  obtain ⟨numberX, numberY⟩ := number_of_le first
  obtain ⟨-, numberZ⟩ := number_of_le second
  exact (le_iff numberX numberZ).mpr
    (Int.le_trans ((le_iff numberX numberY).mp first) ((le_iff numberY numberZ).mp second))

theorem le_of_lt {x y : Float} (less : x < y) : x ≤ y := by
  obtain ⟨numberX, numberY⟩ := number_of_lt less
  exact (le_iff numberX numberY).mpr (Int.le_of_lt ((lt_iff numberX numberY).mp less))

theorem le_of_not_lt {x y : Float} (numberX : x.isNaN = false) (numberY : y.isNaN = false) (order : ¬ x < y) :
    y ≤ x :=
  (le_iff numberY numberX).mpr (Int.not_lt.mp fun less => order ((lt_iff numberX numberY).mpr less))

theorem lt_of_le_of_lt {x y z : Float} (first : x ≤ y) (second : y < z) : x < z := by
  obtain ⟨numberX, numberY⟩ := number_of_le first
  obtain ⟨-, numberZ⟩ := number_of_lt second
  exact (lt_iff numberX numberZ).mpr
    (Int.lt_of_le_of_lt ((le_iff numberX numberY).mp first) ((lt_iff numberY numberZ).mp second))

end Onboard.Double
