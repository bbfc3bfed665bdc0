import Mathlib
import Onboard.Number.Shortest
import Onboard.Proofs.Number.Rounding

/-! The shortest decimal lies in the interval of the numbers that round to the magnitude. The grids reach far enough
down: the last one tried is finer than half the gap between magnitudes, so that its point next to the number is in the
interval. -/

namespace Onboard

theorem roundHalfUp_near {den : ℕ} (positive : 0 < den) (num : ℕ) :
    2 * (roundHalfUp num den * den) ≤ 2 * num + den ∧ 2 * num ≤ 2 * (roundHalfUp num den * den) + den := by
  have whole := Nat.div_add_mod (2 * num + den) (2 * den)
  have rest := Nat.mod_lt (2 * num + den) (Nat.mul_pos two_pos positive)
  have same : 2 * den * ((2 * num + den) / (2 * den)) = 2 * ((2 * num + den) / (2 * den) * den) := by ring
  unfold roundHalfUp
  omega

theorem ten_zpow_pos (e : ℤ) : (0 : ℚ) < 10 ^ e :=
  zpow_pos (by norm_num) e

namespace Decimal

def value (d : Decimal) : ℚ :=
  d.digits * 10 ^ d.exponent

/-- Taking off zeros changes nothing. -/
theorem value_strip (fuel : ℕ) (d : Decimal) : (strip fuel d).value = d.value := by
  induction fuel generalizing d with
  | zero => rfl
  | succ fuel ih =>
    unfold strip
    split
    · next zero =>
      rw [ih]
      have whole : (d.digits : ℚ) = 10 * (d.digits / 10 : ℕ) := by
        exact_mod_cast (Nat.mul_div_cancel' (Nat.dvd_of_mod_eq_zero zero.2)).symm
      rw [value, value, whole, zpow_add₀ (by norm_num), zpow_one]
      ring
    · rfl

namespace Interval
variable (i : Interval)

/-- The multiple of which the bounds are. -/
def unit : ℚ :=
  i.num / i.den

/-- A power of ten as a fraction: its numerator and its denominator. -/
def tenUp (e : ℤ) : ℕ :=
  if 0 ≤ e then Nat.pow 10 e.toNat else 1

def tenDown (e : ℤ) : ℕ :=
  if 0 ≤ e then 1 else Nat.pow 10 (-e).toNat

theorem tenUp_pos (e : ℤ) : 0 < tenUp e := by
  unfold tenUp
  split
  · exact Nat.pow_pos (by norm_num)
  · exact Nat.one_pos

theorem tenDown_pos (e : ℤ) : 0 < tenDown e := by
  unfold tenDown
  split
  · exact Nat.one_pos
  · exact Nat.pow_pos (by norm_num)

theorem ten_zpow_eq (e : ℤ) : (10 : ℚ) ^ e = tenUp e / tenDown e := by
  unfold tenUp tenDown
  split
  · next up =>
    obtain ⟨k, rfl⟩ := Int.eq_ofNat_of_zero_le up
    simp
  · next down =>
    obtain ⟨k, rfl⟩ := Int.exists_eq_neg_ofNat (Int.le_of_lt (Int.not_le.mp down))
    simp

section Comparison
variable {i} (positive : 0 < i.den) (k point : ℕ) (e : ℤ)
include positive

theorem le_grid_iff : k * i.num * tenDown e ≤ point * tenUp e * i.den ↔ (k * i.unit : ℚ) ≤ point * 10 ^ e := by
  have den : (0 : ℚ) < i.den := Nat.cast_pos.mpr positive
  have down : (0 : ℚ) < tenDown e := Nat.cast_pos.mpr (tenDown_pos e)
  rw [unit, ten_zpow_eq, mul_div_assoc', mul_div_assoc', div_le_div_iff₀ den down]
  exact_mod_cast Iff.rfl

theorem grid_le_iff : point * tenUp e * i.den ≤ k * i.num * tenDown e ↔ (point * 10 ^ e : ℚ) ≤ k * i.unit := by
  have den : (0 : ℚ) < i.den := Nat.cast_pos.mpr positive
  have down : (0 : ℚ) < tenDown e := Nat.cast_pos.mpr (tenDown_pos e)
  rw [unit, ten_zpow_eq, mul_div_assoc', mul_div_assoc', div_le_div_iff₀ down den]
  exact_mod_cast Iff.rfl

end Comparison

theorem contains_eq (point : ℕ) (e : ℤ) : i.contains point e =
    (if i.closed then decide (i.low * i.num * tenDown e ≤ point * tenUp e * i.den) &&
      decide (point * tenUp e * i.den ≤ i.high * i.num * tenDown e)
    else decide (i.low * i.num * tenDown e < point * tenUp e * i.den) &&
      decide (point * tenUp e * i.den < i.high * i.num * tenDown e)) :=
  rfl

/-- The numbers of an interval, its ends only if it is closed. -/
structure Holds (i : Interval) (q : ℚ) : Prop where
  ge : i.low * i.unit ≤ q
  le : q ≤ i.high * i.unit
  inside : i.closed = false → i.low * i.unit < q ∧ q < i.high * i.unit

/-- The grid's point next to the number. -/
def best (tie : Tie) (e : ℤ) : ℕ :=
  match tie with
  | .even => roundHalfEven (i.mid * i.num * tenDown e) (i.den * tenUp e)
  | .up => roundHalfUp (i.mid * i.num * tenDown e) (i.den * tenUp e)

theorem nearest_eq (tie : Tie) (e : ℤ) : ∃ other, i.nearest tie e =
    if i.contains (i.best tie e) e then some (i.best tie e) else if i.contains other e then some other else none :=
  ⟨_, rfl⟩

section Search
variable {i} (positive : 0 < i.den) {point : ℕ} {e : ℤ}
include positive

theorem holds_of_contains (inside : i.contains point e = true) : i.Holds (point * 10 ^ e) := by
  rw [contains_eq] at inside
  split at inside
  · next ends =>
    rw [Bool.and_eq_true, decide_eq_true_eq, decide_eq_true_eq] at inside
    exact ⟨(le_grid_iff positive ..).mp inside.1, (grid_le_iff positive ..).mp inside.2,
      fun opened => absurd ends (by simp [opened])⟩
  · rw [Bool.and_eq_true, decide_eq_true_eq, decide_eq_true_eq] at inside
    have above : (i.low * i.unit : ℚ) < point * 10 ^ e := by
      rw [← not_le, ← grid_le_iff positive, not_le]
      exact inside.1
    have below : (point * 10 ^ e : ℚ) < i.high * i.unit := by
      rw [← not_le, ← le_grid_iff positive, not_le]
      exact inside.2
    exact ⟨above.le, below.le, fun _ => ⟨above, below⟩⟩

theorem contains_of_lt (above : (i.low * i.unit : ℚ) < point * 10 ^ e)
    (below : (point * 10 ^ e : ℚ) < i.high * i.unit) : i.contains point e = true := by
  rw [← not_le, ← grid_le_iff positive, not_le] at above
  rw [← not_le, ← le_grid_iff positive, not_le] at below
  rw [contains_eq]
  split <;> rw [Bool.and_eq_true, decide_eq_true_eq, decide_eq_true_eq]
  · exact ⟨above.le, below.le⟩
  · exact ⟨above, below⟩

omit positive in
theorem contains_of_nearest (found : i.nearest tie e = some point) : i.contains point e = true := by
  obtain ⟨other, nearest⟩ := i.nearest_eq tie e
  rw [nearest] at found
  split at found
  · next inside => exact Option.some.inj found ▸ inside
  · split at found
    · next inside => exact Option.some.inj found ▸ inside
    · contradiction

theorem best_near (tie : Tie) (e : ℤ) :
    2 * (i.best tie e * 10 ^ e : ℚ) ≤ 2 * (i.mid * i.unit) + 10 ^ e ∧
      2 * (i.mid * i.unit) ≤ 2 * (i.best tie e * 10 ^ e : ℚ) + 10 ^ e := by
  have den : (0 : ℚ) < i.den := Nat.cast_pos.mpr positive
  have down : (0 : ℚ) < tenDown e := Nat.cast_pos.mpr (tenDown_pos e)
  have common := mul_pos den down
  have numerator : (i.num : ℚ) = i.unit * i.den := (div_mul_cancel₀ _ den.ne').symm
  have power : (tenUp e : ℚ) = 10 ^ e * tenDown e := by rw [ten_zpow_eq, div_mul_cancel₀ _ down.ne']
  have near : 2 * (i.best tie e * (i.den * tenUp e)) ≤ 2 * (i.mid * i.num * tenDown e) + i.den * tenUp e ∧
      2 * (i.mid * i.num * tenDown e) ≤ 2 * (i.best tie e * (i.den * tenUp e)) + i.den * tenUp e := by
    have den := Nat.mul_pos positive (tenUp_pos e)
    cases tie
    · exact roundHalfEven_near den _
    · exact roundHalfUp_near den _
  have nearQ : 2 * (i.best tie e * (i.den * tenUp e) : ℚ) ≤ 2 * (i.mid * i.num * tenDown e) + i.den * tenUp e ∧
      2 * (i.mid * i.num * tenDown e : ℚ) ≤ 2 * (i.best tie e * (i.den * tenUp e)) + i.den * tenUp e := by
    exact_mod_cast near
  rw [numerator, power] at nearQ
  constructor
  · refine le_of_mul_le_mul_right ?_ common
    linarith [nearQ.1]
  · refine le_of_mul_le_mul_right ?_ common
    linarith [nearQ.2]

/-- A grid finer than the gap has a point in the interval. -/
theorem nearest_of_fine (tie : Tie) (fine : (10 : ℚ) ^ e < 2 * i.unit) (low : i.low + 1 ≤ i.mid)
    (high : i.mid + 1 ≤ i.high) : ∃ point, i.nearest tie e = some (point + 1) := by
  obtain ⟨upper, lower⟩ := best_near positive tie e
  have some : (0 : ℚ) ≤ i.unit := div_nonneg (Nat.cast_nonneg _) (Nat.cast_nonneg _)
  have lowest : ((i.low + 1) * i.unit : ℚ) ≤ i.mid * i.unit :=
    mul_le_mul_of_nonneg_right (by exact_mod_cast low) some
  have highest : ((i.mid + 1) * i.unit : ℚ) ≤ i.high * i.unit :=
    mul_le_mul_of_nonneg_right (by exact_mod_cast high) some
  have above : (i.low * i.unit : ℚ) < i.best tie e * 10 ^ e := by linarith
  have inside : i.contains (i.best tie e) e = true := contains_of_lt positive above (by linarith)
  have point : i.best tie e ≠ 0 := by
    intro zero
    rw [zero, Nat.cast_zero, zero_mul] at above
    exact absurd above (not_lt.mpr (mul_nonneg (Nat.cast_nonneg _) some))
  obtain ⟨other, nearest⟩ := i.nearest_eq tie e
  rw [if_pos inside] at nearest
  obtain ⟨point, same⟩ := Nat.exists_eq_succ_of_ne_zero point
  exact ⟨point, nearest.trans (congrArg Option.some same)⟩

/-- Found on a grid. -/
structure Found (i : Interval) (tie : Tie) (d : Decimal) : Prop where
  some : 0 < d.digits
  nearest : i.nearest tie d.exponent = Option.some d.digits

omit positive in
theorem found (tie : Tie) (grids : ℕ) (e : ℤ) {tried : ℕ} (bound : tried < grids)
    (reached : ∃ point, i.nearest tie (e - tried) = some (point + 1)) : Found i tie (i.search tie grids e) := by
  induction grids generalizing e tried with
  | zero => exact absurd bound (Nat.not_lt_zero tried)
  | succ grids ih =>
    unfold search
    split
    · next point here => exact ⟨Nat.succ_pos point, here⟩
    · next missed =>
      obtain ⟨point, there⟩ := reached
      cases tried with
      | zero => exact absurd (Int.sub_zero e ▸ there) (missed point)
      | succ tried =>
        refine ih (e - 1) (Nat.lt_of_succ_lt_succ bound) ⟨point, ?_⟩
        rw [← there]
        congr 1
        omega

theorem Found.holds {d : Decimal} (found : Found i tie d) : i.Holds d.value :=
  holds_of_contains positive (contains_of_nearest found.nearest)

/-- The grid before the one where the search ended was too coarse, if there was one. -/
theorem search_coarse (tie : Tie) (low : i.low + 1 ≤ i.mid) (high : i.mid + 1 ≤ i.high) (grids : ℕ) (e : ℤ) :
    (i.search tie grids e).exponent = e ∨ 2 * i.unit ≤ 10 ^ ((i.search tie grids e).exponent + 1) := by
  induction grids generalizing e with
  | zero => exact .inl rfl
  | succ grids ih =>
    unfold search
    split
    · exact .inl rfl
    · next missed =>
      rcases ih (e - 1) with next | coarse
      · refine .inr (not_lt.mp fun fine => ?_)
        rw [next, sub_add_cancel] at fine
        obtain ⟨point, here⟩ := nearest_of_fine positive tie fine low high
        exact missed point here
      · exact .inr coarse

end Search

theorem of_pos (f : BinaryFormat) (magnitude : ℕ) : 0 < (Interval.of f magnitude).den :=
  unscale_pos Nat.one_pos 1 _

theorem unit_of (f : BinaryFormat) (magnitude : ℕ) :
    (Interval.of f magnitude).unit = 2 ^ ((f.decode magnitude).exponent - 2) := by
  refine (unscale_eq 1 1 _).trans ?_
  rw [Nat.cast_one, div_one, one_div, ← zpow_neg, neg_sub]

end Interval

/-- The guess of a logarithm is not too high, as long as it is a guess of a double's. -/
theorem ten_zpow_le {a : ℤ} (range : -4096 ≤ a) : (10 : ℚ) ^ (a * 1233 / 4096) ≤ 2 ^ (a + 1) := by
  have scaled : ((10 : ℚ) ^ (a * 1233 / 4096)) ^ (4096 : ℤ) ≤ (10 ^ (1233 : ℤ)) ^ a := by
    rw [← zpow_mul, ← zpow_mul]
    exact zpow_le_zpow_right₀ (by norm_num) (by omega)
  have powers : ((10 : ℚ) ^ (1233 : ℤ)) ^ a ≤ (2 ^ (a + 1)) ^ (4096 : ℤ) := by
    rcases Int.le_total 0 a with up | down
    · have above : (10 : ℚ) ^ (1233 : ℤ) ≤ 2 ^ (4096 : ℤ) := by
        exact_mod_cast (by decide +kernel : 10 ^ 1233 ≤ 2 ^ 4096)
      refine (zpow_le_zpow_left₀ up (ten_zpow_pos _).le above).trans ?_
      rw [← zpow_mul, ← zpow_mul]
      exact two_zpow_le (by omega)
    · have below : (2 : ℚ) ^ (4095 : ℤ) ≤ 10 ^ (1233 : ℤ) := by
        exact_mod_cast (by decide +kernel : 2 ^ 4095 ≤ 10 ^ 1233)
      obtain ⟨k, rfl⟩ := Int.exists_eq_neg_ofNat down
      rw [zpow_neg, zpow_natCast]
      refine (inv_anti₀ (pow_pos (two_zpow_pos 4095) k) (pow_le_pow_left₀ (two_zpow_pos 4095).le below k)).trans ?_
      rw [← zpow_natCast, ← zpow_neg, ← zpow_mul, ← zpow_mul]
      exact two_zpow_le (by omega)
  exact (zpow_le_zpow_iff_left₀ (ten_zpow_pos _).le (two_zpow_pos _).le (by decide)).mp (scaled.trans powers)

/-- Nor is it too low by more than one. -/
theorem two_zpow_le_ten {a : ℤ} (range : a ≤ 4096) : (2 : ℚ) ^ (a - 1) ≤ 10 ^ (a * 1233 / 4096 + 1) := by
  have scaled : ((10 : ℚ) ^ (1233 : ℤ)) ^ a ≤ (10 ^ (a * 1233 / 4096 + 1)) ^ (4096 : ℤ) := by
    rw [← zpow_mul, ← zpow_mul]
    exact zpow_le_zpow_right₀ (by norm_num) (by omega)
  have powers : ((2 : ℚ) ^ (a - 1)) ^ (4096 : ℤ) ≤ (10 ^ (1233 : ℤ)) ^ a := by
    rw [← zpow_mul]
    rcases Int.le_total 0 a with up | down
    · have below : (2 : ℚ) ^ (4095 : ℤ) ≤ 10 ^ (1233 : ℤ) := by
        exact_mod_cast (by decide +kernel : 2 ^ 4095 ≤ 10 ^ 1233)
      refine (two_zpow_le (show (a - 1) * 4096 ≤ 4095 * a by omega)).trans ?_
      rw [zpow_mul]
      exact zpow_le_zpow_left₀ up (two_zpow_pos _).le below
    · have above : (10 : ℚ) ^ (1233 : ℤ) ≤ 2 ^ (4096 : ℤ) := by
        exact_mod_cast (by decide +kernel : 10 ^ 1233 ≤ 2 ^ 4096)
      obtain ⟨k, rfl⟩ := Int.exists_eq_neg_ofNat down
      refine (two_zpow_le (show (-(k : ℤ) - 1) * 4096 ≤ 4096 * -(k : ℤ) by omega)).trans ?_
      rw [zpow_mul, zpow_neg, zpow_neg, zpow_natCast, zpow_natCast]
      exact inv_anti₀ (pow_pos (ten_zpow_pos 1233) k) (pow_le_pow_left₀ (ten_zpow_pos 1233).le above k)
  exact (zpow_le_zpow_iff_left₀ (two_zpow_pos _).le (ten_zpow_pos _).le (by decide)).mp (powers.trans scaled)

/-- The last grid tried is fine enough. -/
theorem fine_grid {s : Scaled} (small : s.coefficient < 2 ^ 53) (least : -1074 ≤ s.exponent) :
    (10 : ℚ) ^ (firstGrid s - 21) < 2 ^ (s.exponent - 1) := by
  have bits : s.coefficient.log2 ≤ 52 := by
    rcases Nat.eq_zero_or_pos s.coefficient with zero | positive
    · rw [zero]
      decide
    · exact Nat.le_of_lt_succ ((Nat.log2_lt positive.ne').mpr small)
  unfold firstGrid
  generalize length : (s.coefficient.log2 + 1 : ℤ) + s.exponent = a
  have power := ten_zpow_le (a := a) (by omega)
  have finer : (2 : ℚ) ^ (66 : ℤ) < 10 ^ (20 : ℤ) := by norm_num
  calc
    (10 : ℚ) ^ (a * 1233 / 4096 + 1 - 21) = 10 ^ (a * 1233 / 4096) / 10 ^ (20 : ℤ) := by
      rw [← zpow_sub₀ (by norm_num)]
      congr 1
      omega
    _ < 10 ^ (a * 1233 / 4096) / 2 ^ (66 : ℤ) :=
      div_lt_div_of_pos_left (ten_zpow_pos _) (two_zpow_pos 66) finer
    _ ≤ 2 ^ (a + 1) / 2 ^ (66 : ℤ) := div_le_div_of_nonneg_right power (two_zpow_pos 66).le
    _ ≤ 2 ^ (s.exponent - 1) := by
      rw [← zpow_sub₀ (by norm_num)]
      exact two_zpow_le (by omega)

theorem digits_strip_pos (fuel : ℕ) {d : Decimal} (some : 0 < d.digits) : 0 < (strip fuel d).digits := by
  induction fuel generalizing d with
  | zero => exact some
  | succ fuel ih =>
    unfold strip
    split
    · exact ih (by dsimp only; omega)
    · exact some

theorem digits_strip_le (fuel : ℕ) (d : Decimal) : (strip fuel d).digits ≤ d.digits := by
  induction fuel generalizing d with
  | zero => exact Nat.le_refl _
  | succ fuel ih =>
    unfold strip
    split
    · exact (ih _).trans (Nat.div_le_self ..)
    · exact Nat.le_refl _

/-- The shortest decimal is the one that was found, but for zeros at the end. -/
theorem found_shortest (f : BinaryFormat) (tie : Tie) {magnitude : ℕ} (positive : 0 < (f.decode magnitude).coefficient)
    (small : (f.decode magnitude).coefficient < 2 ^ 53) (least : -1074 ≤ (f.decode magnitude).exponent) :
    ∃ d, (Interval.of f magnitude).Found tie d ∧ shortest f tie magnitude = strip 400 d := by
  refine ⟨_, Interval.found tie 22 _ (show 21 < 22 by decide) ?_, rfl⟩
  refine Interval.nearest_of_fine (Interval.of_pos f magnitude) tie ?_ ?_ ?_
  · rw [Interval.unit_of]
    refine (fine_grid small least).trans_eq ?_
    rw [← zpow_one_add₀ two_ne_zero]
    congr 1
    omega
  · change 4 * (f.decode magnitude).coefficient - (if _ then 1 else 2) + 1 ≤ 4 * (f.decode magnitude).coefficient
    split <;> omega
  · exact Nat.le_succ _

theorem holds_shortest (f : BinaryFormat) (tie : Tie) {magnitude : ℕ} (positive : 0 < (f.decode magnitude).coefficient)
    (small : (f.decode magnitude).coefficient < 2 ^ 53) (least : -1074 ≤ (f.decode magnitude).exponent) :
    0 < (shortest f tie magnitude).digits ∧ (Interval.of f magnitude).Holds (shortest f tie magnitude).value := by
  obtain ⟨d, found, same⟩ := found_shortest f tie positive small least
  rw [same, value_strip]
  exact ⟨digits_strip_pos 400 found.some, found.holds (Interval.of_pos f magnitude)⟩

/-- The shortest decimal is at most half the gap above the number, and not so much if the last bit is set. -/
theorem shortest_spec (f : BinaryFormat) (tie : Tie) {magnitude : ℕ} (positive : 0 < (f.decode magnitude).coefficient)
    (small : (f.decode magnitude).coefficient < 2 ^ 53) (least : -1074 ≤ (f.decode magnitude).exponent) :
    0 < (shortest f tie magnitude).digits ∧ (shortest f tie magnitude).value ≤
        (4 * (f.decode magnitude).coefficient + 2) * 2 ^ ((f.decode magnitude).exponent - 2) ∧
      ((f.decode magnitude).coefficient % 2 = 1 → (shortest f tie magnitude).value <
        (4 * (f.decode magnitude).coefficient + 2) * 2 ^ ((f.decode magnitude).exponent - 2)) := by
  obtain ⟨some, -, le, inside⟩ := holds_shortest f tie positive small least
  have bound : ((Interval.of f magnitude).high : ℚ) = 4 * (f.decode magnitude).coefficient + 2 := by
    change ((4 * (f.decode magnitude).coefficient + 2 : ℕ) : ℚ) = _
    push_cast
    rfl
  rw [Interval.unit_of, bound] at le inside
  exact ⟨some, le, fun odd => (inside (decide_eq_false (by omega))).2⟩

/-- Half a gap below the greatest double. -/
def nearTop : ℚ :=
  (2 ^ 54 - 3) * 2 ^ (970 : ℤ)

theorem nearTop_lt : nearTop < BinaryFormat.overflow := by
  rw [nearTop, BinaryFormat.overflow]
  exact mul_lt_mul_of_pos_right (by norm_num) (two_zpow_pos 970)

/-- The upper end of the interval of any double but the greatest. -/
theorem half_gap_le_nearTop {c : ℕ} {e : ℤ}
    (below : c + 2 ≤ 2 ^ 53 ∧ e ≤ 971 ∨ c < 2 ^ 53 ∧ e ≤ 970) : (4 * c + 2 : ℚ) * 2 ^ (e - 2) ≤ nearTop := by
  have gap := (two_zpow_pos (e - 2)).le
  rcases below with ⟨coefficient, exponent⟩ | ⟨coefficient, exponent⟩
  · have digits : (4 * c + 2 : ℚ) ≤ 2 ^ 55 - 6 := by
      rw [le_sub_iff_add_le]
      exact_mod_cast (by omega : 4 * c + 2 + 6 ≤ 2 ^ 55)
    calc
      (4 * c + 2 : ℚ) * 2 ^ (e - 2) ≤ (2 ^ 55 - 6) * 2 ^ (969 : ℤ) :=
        mul_le_mul digits (two_zpow_le (by omega)) gap (by norm_num)
      _ = nearTop := by
        rw [nearTop, show (970 : ℤ) = 1 + 969 by rfl, two_zpow_add]
        ring
  · have digits : (4 * c + 2 : ℚ) ≤ 2 ^ 56 - 12 := by
      rw [le_sub_iff_add_le]
      exact_mod_cast (by omega : 4 * c + 2 + 12 ≤ 2 ^ 56)
    calc
      (4 * c + 2 : ℚ) * 2 ^ (e - 2) ≤ (2 ^ 56 - 12) * 2 ^ (968 : ℤ) :=
        mul_le_mul digits (two_zpow_le (by omega)) gap (by norm_num)
      _ = nearTop := by
        rw [nearTop, show (970 : ℤ) = 2 + 968 by rfl, two_zpow_add]
        ring

theorem shortest_double (tie : Tie) {magnitude : ℕ} (positive : 0 < magnitude)
    (finite : magnitude < BinaryFormat.double.infinity) :
    0 < (shortest .double tie magnitude).digits ∧ (shortest .double tie magnitude).value < BinaryFormat.overflow ∧
      (magnitude + 1 < BinaryFormat.double.infinity → (shortest .double tie magnitude).value ≤ nearTop) := by
  obtain ⟨k, exponent, same, small, normal⟩ := BinaryFormat.double.decoded magnitude
  rw [BinaryFormat.precision_double] at *
  rw [BinaryFormat.minExponent_double] at exponent
  rw [BinaryFormat.infinity_double] at *
  have some : 0 < (BinaryFormat.double.decode magnitude).coefficient := by omega
  obtain ⟨digits, le, lt⟩ := shortest_spec .double tie some (by omega) (by omega)
  rw [exponent] at le lt
  generalize (BinaryFormat.double.decode magnitude).coefficient = c at *
  by_cases greatest : magnitude + 1 < 2047 * 2 ^ 52
  · have near := le.trans (half_gap_le_nearTop (by omega))
    exact ⟨digits, near.trans_lt nearTop_lt, fun _ => near⟩
  · have last : c = 2 ^ 53 - 1 ∧ k = 2045 := by omega
    obtain ⟨rfl, rfl⟩ := last
    refine ⟨digits, (lt (by decide)).trans_eq ?_, fun less => absurd less greatest⟩
    rw [BinaryFormat.overflow, show (970 : ℤ) = 1 + 969 by rfl, two_zpow_add,
      show (-1074 + (2045 : ℕ) - 2 : ℤ) = 969 by rfl]
    generalize (2 : ℚ) ^ (969 : ℤ) = gap
    norm_num
    ring

theorem shortest_single (tie : Tie) {magnitude : ℕ} (positive : 0 < magnitude)
    (finite : magnitude < BinaryFormat.single.infinity) :
    0 < (shortest .single tie magnitude).digits ∧ (shortest .single tie magnitude).value ≤ nearTop := by
  obtain ⟨k, exponent, same, small, normal⟩ := BinaryFormat.single.decoded magnitude
  change _ = (-149 : ℤ) + k at exponent
  change _ = k * 2 ^ 23 + _ at same
  change _ < 2 * 2 ^ 23 at small
  change k = 0 ∨ 2 ^ 23 ≤ _ at normal
  change magnitude < 255 * 2 ^ 23 at finite
  have some : 0 < (BinaryFormat.single.decode magnitude).coefficient := by omega
  obtain ⟨digits, le, -⟩ := shortest_spec .single tie some (by omega) (by omega)
  exact ⟨digits, le.trans (half_gap_le_nearTop (by omega))⟩

end Decimal
end Onboard
