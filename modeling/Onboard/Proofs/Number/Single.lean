import Mathlib
import Onboard.Number.Single
import Onboard.Proofs.Number.Arithmetic
import Onboard.Proofs.Number.Halfway
import Onboard.Proofs.Number.Nearest

/-! Singles that are read by way of a double. The shortest decimal of a single is clear of both ends of its interval,
or is one of them, so that what comes close to it rounds to that single again. -/

namespace Onboard

open BinaryFormat (single double)

/-- Near enough that no end is passed on the way from a number that is clear of it, and equal to it at an end. -/
structure CloseTo (q y : ℚ) : Prop where
  near : 2 ^ 54 * |y - q| ≤ 5 * q
  exact {c : ℕ} {e : ℤ} : c < 2 ^ 26 → -151 ≤ e → q = c * 2 ^ e → y = q

section Ends
variable {q y u : ℚ} (close : CloseTo q y) (clear : IsClearOf q u)
include close clear

theorem CloseTo.lt (less : q < u) : y < u := by
  rcases clear with same | apart
  · exact absurd same less.ne
  · have distance := (abs_le.mp ((le_div_iff₀' (by norm_num)).mpr close.near)).2
    rw [abs_of_neg (sub_neg.mpr less)] at apart
    linarith

theorem CloseTo.gt (greater : u < q) : u < y := by
  rcases clear with same | apart
  · exact absurd same greater.ne'
  · have distance := (abs_le.mp ((le_div_iff₀' (by norm_num)).mpr close.near)).1
    rw [abs_of_pos (sub_pos.mpr greater)] at apart
    linarith

end Ends

namespace Decimal

namespace Interval

/-- Clear of both ends. -/
structure IsClear (i : Interval) (q : ℚ) : Prop where
  low : IsClearOf q (i.low * i.unit)
  high : IsClearOf q (i.high * i.unit)

theorem Holds.of_close {i : Interval} (holds : i.Holds q) (clear : i.IsClear q) (close : CloseTo q y)
    (atLow : q = i.low * i.unit → y = q) (atHigh : q = i.high * i.unit → y = q) : i.Holds y := by
  obtain ⟨ge, le, inside⟩ := holds
  refine ⟨?_, ?_, fun opened => ⟨close.gt clear.low (inside opened).1, close.lt clear.high (inside opened).2⟩⟩
  · rcases ge.lt_or_eq with above | same
    · exact (close.gt clear.low above).le
    · rw [atLow same.symm]
      exact ge
  · rcases le.lt_or_eq with below | same
    · exact (close.lt clear.high below).le
    · rw [atHigh same]
      exact le

/-- Clear of the end with this number of units, in whole numbers. -/
def ClearsEnd (i : Interval) (units : ℕ) (d : Decimal) : Prop :=
  d.digits * tenUp d.exponent * i.den = units * i.num * tenDown d.exponent ∨
    3 * (units * i.num * tenDown d.exponent : ℤ) <
      2 ^ 53 * |(d.digits * tenUp d.exponent * i.den - units * i.num * tenDown d.exponent : ℤ)|

instance (i : Interval) (units : ℕ) (d : Decimal) : Decidable (i.ClearsEnd units d) :=
  inferInstanceAs (Decidable (_ ∨ _))

theorem ClearsEnd.isClearOf {i : Interval} (positive : 0 < i.den) {units : ℕ} {d : Decimal}
    (clears : i.ClearsEnd units d) : IsClearOf d.value (units * i.unit) := by
  have den : (0 : ℚ) < i.den := Nat.cast_pos.mpr positive
  have down : (0 : ℚ) < tenDown d.exponent := Nat.cast_pos.mpr (tenDown_pos _)
  have common : (0 : ℚ) < 1 / (i.den * tenDown d.exponent) := one_div_pos.mpr (mul_pos den down)
  have decimal : d.value = (d.digits * tenUp d.exponent * i.den) * (1 / (i.den * tenDown d.exponent)) := by
    rw [value, ten_zpow_eq]
    field_simp
  have point : (units * i.unit : ℚ) = (units * i.num * tenDown d.exponent) * (1 / (i.den * tenDown d.exponent)) := by
    rw [unit]
    field_simp
  rw [decimal, point]
  rcases clears with same | apart
  · refine .inl (congrArg (· * _) ?_)
    exact_mod_cast same
  · refine .inr ?_
    have apart : 3 * (units * i.num * tenDown d.exponent : ℚ) <
        2 ^ 53 * |(d.digits * tenUp d.exponent * i.den - units * i.num * tenDown d.exponent : ℚ)| := by
      exact_mod_cast apart
    rw [← sub_mul, abs_mul, abs_of_pos common, ← mul_assoc 3, ← mul_assoc (2 ^ 53)]
    exact mul_lt_mul_of_pos_right apart common

end Interval

theorem single_decoded {magnitude : ℕ} (positive : 0 < magnitude) :
    ∃ k : ℕ, (single.decode magnitude).exponent = -149 + k ∧
      magnitude = k * 2 ^ 23 + (single.decode magnitude).coefficient ∧ 0 < (single.decode magnitude).coefficient ∧
      (single.decode magnitude).coefficient < 2 * 2 ^ 23 ∧
      (k = 0 ∨ 2 ^ 23 ≤ (single.decode magnitude).coefficient) := by
  obtain ⟨k, exponent, same, small, normal⟩ := single.decoded magnitude
  change _ = k * 2 ^ 23 + _ at same
  change _ < 2 * 2 ^ 23 at small
  change k = 0 ∨ 2 ^ 23 ≤ _ at normal
  exact ⟨k, exponent, same, by omega, small, normal⟩

/-- The single below the point that is excused. -/
def excusedMagnitude : ℕ :=
  0x15AE43FD

/-- Powers of two, whose intervals are not even, and the single above the point that is excused. -/
theorem clearsEnd_special : ∀ i : Fin 254,
    let magnitude := if i = 253 then excusedMagnitude + 1 else (i + 2) * 2 ^ 23
    (Interval.of single magnitude).ClearsEnd (Interval.of single magnitude).low (shortest single .even magnitude) ∧
      (Interval.of single magnitude).ClearsEnd (Interval.of single magnitude).high
        (shortest single .even magnitude) := by
  decide +kernel

theorem isClear_special (i : Fin 254) {magnitude : ℕ}
    (same : magnitude = if i = 253 then excusedMagnitude + 1 else (i + 2) * 2 ^ 23) :
    (Interval.of single magnitude).IsClear (shortest single .even magnitude).value := by
  obtain ⟨low, high⟩ := clearsEnd_special i
  subst same
  exact ⟨low.isClearOf (Interval.of_pos single _), high.isClearOf (Interval.of_pos single _)⟩

/-- The grid on which a decimal was found is coarser than the gap, or the decimal is its point next to the number. -/
theorem Interval.Found.near {i : Interval} (positive : 0 < i.den) {d : Decimal} (found : i.Found tie d) {h : ℚ}
    (low : i.low * i.unit = i.mid * i.unit - h) (high : i.high * i.unit = i.mid * i.unit + h)
    (fine : 2 ^ 20 * 10 ^ d.exponent ≤ (2 ^ 20 - 1) * (2 * h)) :
    2 ^ 20 * |d.value - i.mid * i.unit| ≤ (2 ^ 20 - 1) * h := by
  obtain ⟨upper, lower⟩ := best_near positive tie d.exponent
  have power := ten_zpow_pos d.exponent
  have inside : i.contains (i.best tie d.exponent) d.exponent = true := by
    refine contains_of_lt positive ?_ ?_
    · rw [low]
      linarith
    · rw [high]
      linarith
  have digits : d.digits = i.best tie d.exponent := by
    obtain ⟨other, nearest⟩ := i.nearest_eq tie d.exponent
    rw [if_pos inside, found.nearest] at nearest
    exact Option.some.inj nearest
  have distance : |d.value - i.mid * i.unit| ≤ 10 ^ d.exponent / 2 := by
    rw [value, digits, abs_le]
    constructor <;> linarith
  linarith

theorem isClear_shortest {magnitude : ℕ} (positive : 0 < magnitude) (finite : magnitude < single.infinity)
    (usual : magnitude ≠ excusedMagnitude) :
    (Interval.of single magnitude).IsClear (shortest single .even magnitude).value := by
  obtain ⟨k, exponent, same, coefficient, small, normal⟩ := single_decoded positive
  change magnitude < 255 * 2 ^ 23 at finite
  by_cases next : magnitude = excusedMagnitude + 1
  · exact isClear_special 253 (next.trans (if_pos rfl).symm)
  by_cases power : (single.decode magnitude).coefficient = 2 ^ 23 ∧ 0 < k
  · have index : k - 1 < 253 := by omega
    refine isClear_special ⟨k - 1, by omega⟩ ?_
    rw [if_neg fun last => index.ne (congrArg Fin.val last)]
    dsimp only
    omega
  obtain ⟨d, found, digits⟩ := found_shortest single .even coefficient (by omega) (by omega)
  rw [digits, value_strip]
  have den := Interval.of_pos single magnitude
  have quarter : (Interval.of single magnitude).unit = 2 ^ (-149 + k - 1 : ℤ) / 2 := by
    rw [Interval.unit_of, exponent, zpow_sub₀ two_ne_zero, zpow_sub₀ two_ne_zero]
    norm_num
    ring
  have lowEnd : (Interval.of single magnitude).low = 4 * (single.decode magnitude).coefficient - 2 := by
    refine congrArg (4 * (single.decode magnitude).coefficient - ·) (if_neg ?_)
    change ¬ ((single.decode magnitude).coefficient = 2 ^ 23 ∧ -149 < (single.decode magnitude).exponent)
    omega
  have highEnd : (Interval.of single magnitude).high = 4 * (single.decode magnitude).coefficient + 2 := rfl
  have middle : (Interval.of single magnitude).mid = 4 * (single.decode magnitude).coefficient := rfl
  generalize (single.decode magnitude).coefficient = c at *
  generalize Interval.of single magnitude = i at *
  have half := two_zpow_pos (-149 + k - 1)
  have gap : (2 : ℚ) ^ (-149 + k : ℤ) = 2 * 2 ^ (-149 + k - 1 : ℤ) := by
    rw [← zpow_one_add₀ two_ne_zero]
    congr 1
    omega
  have lowPoint : (i.low * i.unit : ℚ) = (2 * c - 1 : ℕ) * 2 ^ (-149 + k - 1 : ℤ) := by
    rw [quarter, lowEnd, Nat.cast_sub (by omega), Nat.cast_sub (by omega)]
    push_cast
    ring
  have highPoint : (i.high * i.unit : ℚ) = (2 * c + 1 : ℕ) * 2 ^ (-149 + k - 1 : ℤ) := by
    rw [quarter, highEnd]
    push_cast
    ring
  have number : (i.mid * i.unit : ℚ) = 2 * c * 2 ^ (-149 + k - 1 : ℤ) := by
    rw [quarter, middle]
    push_cast
    ring
  have unexcused {m : ℕ} (beside : m = 2 * c - 1 ∨ m = 2 * c + 1) : m ≠ excusedPoint (-149 + k) := by
    unfold excusedPoint
    unfold excusedMagnitude at *
    split <;> omega
  by_cases coarse : (2 ^ 20 - 1) * 2 ^ (-149 + k : ℤ) < (2 ^ 20 * 10 ^ d.exponent : ℚ)
  · constructor
    · rw [lowPoint]
      exact isClearOf_halfway (by omega) (by omega) coarse (by omega) (by omega) (unexcused (.inl rfl)) d.digits
    · rw [highPoint]
      exact isClearOf_halfway (by omega) (by omega) coarse (by omega) (by omega) (unexcused (.inr rfl)) d.digits
  · rw [not_lt, gap] at coarse
    have below : (i.low * i.unit : ℚ) = i.mid * i.unit - 2 ^ (-149 + k - 1 : ℤ) := by
      rw [lowPoint, number, Nat.cast_sub (by omega)]
      push_cast
      ring
    have above : (i.high * i.unit : ℚ) = i.mid * i.unit + 2 ^ (-149 + k - 1 : ℤ) := by
      rw [highPoint, number]
      push_cast
      ring
    have near := found.near den below above coarse
    have range := abs_le.mp ((le_div_iff₀' (by norm_num)).mpr near)
    have most : (i.mid * i.unit + 2 ^ (-149 + k - 1 : ℤ) : ℚ) ≤ 2 ^ 25 * 2 ^ (-149 + k - 1 : ℤ) := by
      rw [← above, highPoint]
      exact mul_le_mul_of_nonneg_right (by exact_mod_cast (by omega : 2 * c + 1 ≤ 2 ^ 25)) half.le
    generalize (2 : ℚ) ^ (-149 + k - 1 : ℤ) = h at *
    constructor
    · have distance := le_abs_self (d.value - i.low * i.unit)
      refine .inr ?_
      linarith
    · have distance := neg_le_abs (d.value - i.high * i.unit)
      refine .inr ?_
      linarith

theorem le_shortest_single {magnitude : ℕ} (positive : 0 < magnitude) :
    (2 : ℚ) ^ (-151 : ℤ) ≤ (shortest single .even magnitude).value := by
  obtain ⟨k, exponent, same, coefficient, small, normal⟩ := single_decoded positive
  have ge := (holds_shortest single .even coefficient (by omega) (by omega)).2.ge
  have low : 1 ≤ (Interval.of single magnitude).low := by
    change 1 ≤ 4 * (single.decode magnitude).coefficient - if _ then 1 else 2
    split <;> omega
  rw [Interval.unit_of] at ge
  refine le_trans ?_ ge
  refine (two_zpow_le (by omega)).trans (le_mul_of_one_le_left (two_zpow_pos _).le ?_)
  exact_mod_cast low

theorem shortest_single_lt {magnitude : ℕ} (positive : 0 < magnitude) (finite : magnitude < single.infinity) :
    (shortest single .even magnitude).value < 2 ^ (129 : ℤ) := by
  obtain ⟨k, exponent, same, coefficient, small, normal⟩ := single_decoded positive
  change magnitude < 255 * 2 ^ 23 at finite
  have le := (holds_shortest single .even coefficient (by omega) (by omega)).2.le
  have high : (Interval.of single magnitude).high ≤ 2 ^ 26 := by
    change 4 * (single.decode magnitude).coefficient + 2 ≤ _
    omega
  rw [Interval.unit_of] at le
  calc
    (shortest single .even magnitude).value ≤ _ := le
    _ ≤ 2 ^ 26 * 2 ^ (102 : ℤ) :=
      mul_le_mul (by exact_mod_cast high) (two_zpow_le (by omega)) (two_zpow_pos _).le (by positivity)
    _ < 2 ^ (129 : ℤ) := by norm_num

/-- The grid before the one on which it was found would have been too coarse, or there was none before it. -/
theorem digits_shortest_single {magnitude : ℕ} (positive : 0 < magnitude) (finite : magnitude < single.infinity) :
    (shortest single .even magnitude).digits < 10 ^ 9 := by
  obtain ⟨k, exponent, same, coefficient, small, normal⟩ := single_decoded positive
  change magnitude < 255 * 2 ^ 23 at finite
  have le := (holds_shortest single .even coefficient (by omega) (by omega)).2.le
  have high : (Interval.of single magnitude).high = 4 * (single.decode magnitude).coefficient + 2 := rfl
  have low : (Interval.of single magnitude).low + 1 ≤ (Interval.of single magnitude).mid := by
    change 4 * (single.decode magnitude).coefficient - (if _ then 1 else 2) + 1 ≤
      4 * (single.decode magnitude).coefficient
    split <;> omega
  have coarse := Interval.search_coarse (Interval.of_pos single magnitude) .even low (Nat.le_succ _) 22
    (firstGrid (single.decode magnitude))
  unfold shortest at le ⊢
  rw [value_strip, value, high, Interval.unit_of] at le
  rw [Interval.unit_of] at coarse
  refine (digits_strip_le ..).trans_lt ?_
  generalize (Interval.of single magnitude).search .even 22 (firstGrid (single.decode magnitude)) = d at *
  generalize single.decode magnitude = s at *
  have power := ten_zpow_pos d.exponent
  have unit := two_zpow_pos (s.exponent - 2)
  rcases coarse with first | coarse
  · have bits := Double.log2_lt_succ (b := 23) small
    have guess : (2 : ℚ) ^ (s.coefficient.log2 + 1 + s.exponent - 1 : ℤ) ≤ 10 ^ d.exponent := by
      rw [first]
      exact two_zpow_le_ten (by omega)
    have filled : (s.coefficient + 1 : ℚ) ≤ 2 ^ (s.coefficient.log2 + 1 : ℤ) := by
      exact_mod_cast Nat.lt_log2_self (n := s.coefficient)
    have most : (d.digits * 10 ^ d.exponent : ℚ) ≤ (2 : ℕ) * 10 ^ d.exponent := by
      calc
        (d.digits * 10 ^ d.exponent : ℚ) ≤ (4 * s.coefficient + 2 : ℕ) * 2 ^ (s.exponent - 2) := le
        _ ≤ 2 ^ (2 : ℤ) * 2 ^ (s.coefficient.log2 + 1 : ℤ) * 2 ^ (s.exponent - 2) := by
          refine mul_le_mul_of_nonneg_right ?_ unit.le
          push_cast
          linarith
        _ = (2 : ℕ) * 2 ^ (s.coefficient.log2 + 1 + s.exponent - 1 : ℤ) := by
          rw [Nat.cast_ofNat, ← two_zpow_add, ← two_zpow_add, ← zpow_one_add₀ two_ne_zero]
          congr 1
          omega
        _ ≤ (2 : ℕ) * 10 ^ d.exponent := mul_le_mul_of_nonneg_left guess (by norm_num)
    have digits : d.digits ≤ 2 := by exact_mod_cast le_of_mul_le_mul_right most power
    omega
  · rw [zpow_add_one₀ (by norm_num)] at coarse
    have most : (d.digits * 10 ^ d.exponent : ℚ) ≤ ((4 * s.coefficient + 2) * 5 : ℕ) * 10 ^ d.exponent := by
      rw [Nat.cast_mul, Nat.cast_ofNat, mul_assoc]
      exact le.trans (mul_le_mul_of_nonneg_left (by linarith) (Nat.cast_nonneg _))
    have digits : d.digits ≤ (4 * s.coefficient + 2) * 5 := by exact_mod_cast le_of_mul_le_mul_right most power
    omega

/-- What is close to the shortest decimal of a single rounds to that single. -/
theorem roundRatio_of_close {magnitude num den : ℕ} (positive : 0 < magnitude) (finite : magnitude < single.infinity)
    (usual : magnitude ≠ excusedMagnitude) (some : 0 < den)
    (close : CloseTo (shortest single .even magnitude).value (num / den)) : single.roundRatio num den = magnitude := by
  obtain ⟨k, exponent, same, coefficient, small, normal⟩ := single_decoded positive
  have holds := (holds_shortest single .even coefficient (by omega) (by omega)).2
  have unit := Interval.unit_of single magnitude
  have low : (Interval.of single magnitude).low ≤ 4 * (single.decode magnitude).coefficient := Nat.sub_le ..
  have high : (Interval.of single magnitude).high = 4 * (single.decode magnitude).coefficient + 2 := rfl
  refine BinaryFormat.roundRatio_of_holds (by decide) some positive finite ?_
  refine holds.of_close (isClear_shortest positive finite usual) close ?_ ?_
  · rw [unit]
    exact close.exact (by omega) (by omega)
  · rw [unit]
    exact close.exact (by omega) (by omega)

end Decimal

theorem BinaryFormat.closeTo_roundDecimal {digits : ℕ} {exponent : ℤ}
    (low : (2 : ℚ) ^ (-1000 : ℤ) ≤ digits * 10 ^ exponent)
    (high : (digits * 10 ^ exponent : ℚ) < overflow) :
    CloseTo (digits * 10 ^ exponent) (double.decode (double.roundDecimal digits exponent)).value := by
  have finite := roundDecimal_lt_infinity high
  obtain ⟨num, den, positive, value, same⟩ := roundDecimal_eq ((two_zpow_le (by decide)).trans low)
    (high.trans (overflow_lt.trans_le (two_zpow_le (by decide))))
  rw [← value] at low ⊢
  rw [same] at finite ⊢
  have some : 0 < num := pos_of_two_zpow_le (low.trans_eq (div_eq_mul_inv ..))
  have near := abs_value_sub_le (by decide) some positive finite ((two_zpow_le (by decide)).trans low)
  rw [precision_double] at near
  refine ⟨?_, fun small least exact => ?_⟩
  · linarith [two_zpow_pos (-1000)]
  · refine value_of_exact (by decide) some positive finite (small.trans (by decide)) ?_ exact
    rw [minExponent_double]
    omega

namespace Single

theorem ofParts_magnitude (x : Single) : ofParts x.isNegative x.magnitude = x := by
  obtain ⟨bits⟩ := x
  have bound := bits.toNat_lt
  refine congrArg mk (UInt32.toNat_inj.mp ?_)
  change (UInt32.ofNat (bits.toNat % 0x80000000 + if decide (0x80000000 ≤ bits.toNat) then 0x80000000 else 0)).toNat = _
  rw [UInt32.toNat_ofNat']
  split
  · next high =>
    have := of_decide_eq_true high
    omega
  · next low =>
    have : ¬ 0x80000000 ≤ bits.toNat := fun high => low (decide_eq_true high)
    omega

theorem ofFloat_finite {x : Float} (finite : x.isFinite = true) : ofFloat x =
    ofParts (Double.isNegative x) (single.roundRatio
      (unscale (Double.scaled x).coefficient 1 (-(Double.scaled x).exponent)).1
      (unscale (Double.scaled x).coefficient 1 (-(Double.scaled x).exponent)).2) := by
  have number := Double.number_of_isFinite finite
  have bounded : x.isInf = false := by
    change x.toModel.unpack.isFinite = true at finite
    change x.toModel.unpack.isInf = false
    generalize x.toModel.unpack = a at *
    cases a <;> first | contradiction | rfl
  rw [ofFloat, number, bounded]
  rfl

/-- A double close to what a single is written as stands for that single. -/
theorem ofFloat_of_close {x : Single} {y : Float} (positive : 0 < x.magnitude) (finite : x.isFinite = true)
    (usual : x.magnitude ≠ Decimal.excusedMagnitude) (finiteY : y.isFinite = true)
    (signs : Double.isNegative y = x.isNegative)
    (close : CloseTo (Decimal.shortest single .even x.magnitude).value (Double.scaled y).value) : ofFloat y = x := by
  have ratio := unscale_eq (Double.scaled y).coefficient 1 (-(Double.scaled y).exponent)
  rw [Nat.cast_one, div_one, zpow_neg, div_inv_eq_mul] at ratio
  rw [ofFloat_finite finiteY, signs, Decimal.roundRatio_of_close positive (of_decide_eq_true finite) usual
    (unscale_pos Nat.one_pos ..) (ratio ▸ close), ofParts_magnitude]

end Single

end Onboard
