import Mathlib
import Onboard.Proofs.Number.Shortest

/-! Decimals next to the points half way between singles. The ratio of a power of two and a power of ten lies between
neighbours among the fractions whose denominators have up to 25 bits, and of these no other one is nearer to it. So a
decimal on a grid coarser than the gap between singles either is a point half way or is clear of it, by more than two
roundings to a double can move it. One point is an exception. -/

namespace Onboard

/-- A fraction `p / q` below a ratio and a fraction `r / s` above it. -/
structure Bracket where
  p : ℕ
  q : ℕ
  r : ℕ
  s : ℕ

namespace Bracket

/-- How far the ratio `A / B` is above the lower fraction, over both denominators. -/
def below (b : Bracket) (A B : ℕ) : ℤ :=
  b.q * A - b.p * B

def above (b : Bracket) (A B : ℕ) : ℤ :=
  b.r * B - b.s * A

/-- Neighbours among the fractions of 25 bits, with the ratio between them. -/
structure Encloses (b : Bracket) (A B : ℕ) : Prop where
  neighbours : b.r * b.q = b.p * b.s + 1
  lower : 0 ≤ b.below A B
  upper : 0 ≤ b.above A B
  bits : 2 ^ 25 ≤ b.q + b.s

/-- The ratio is clear of both neighbours or, where it is one of them, of the other one. The lower neighbour may be
excused. -/
structure IsClear (b : Bracket) (A B excused : ℕ) : Prop where
  lower : 3 * (b.q * A) < 2 ^ 53 * b.below A B ∨
    3 * 2 ^ 25 * A < 2 ^ 53 * b.above A B ∧ (b.below A B = 0 ∨ b.q = excused ∧ 2 ^ 25 ≤ 2 * b.q)
  upper : 3 * (b.s * A) < 2 ^ 53 * b.above A B ∨ 3 * 2 ^ 25 * A < 2 ^ 53 * b.below A B ∧ b.above A B = 0

section Neighbours
variable {b : Bracket} {A B excused m d : ℕ}

/-- Fractions of 25 bits are combinations of the neighbours, beyond one of them. -/
theorem Encloses.combination (encloses : b.Encloses A B) (some : 0 < m) (small : m < 2 ^ 25) (d : ℕ) :
    ∃ i j : ℤ, m = i * b.q + j * b.s ∧ (m * A - d * B : ℤ) = i * b.below A B - j * b.above A B ∧
      (0 < i ∧ j ≤ 0 ∨ i ≤ 0 ∧ 0 < j) := by
  obtain ⟨neighbours, -, -, bits⟩ := encloses
  have unit : (b.r * b.q : ℤ) = b.p * b.s + 1 := by exact_mod_cast neighbours
  have whole : (m : ℤ) = (m * b.r - d * b.s) * b.q + (d * b.q - m * b.p) * b.s := by linear_combination -m * unit
  have numerator : (d : ℤ) = (m * b.r - d * b.s) * b.p + (d * b.q - m * b.p) * b.r := by linear_combination -d * unit
  refine ⟨m * b.r - d * b.s, d * b.q - m * b.p, whole, ?_, ?_⟩
  · unfold Bracket.below Bracket.above
    linear_combination A * whole - B * numerator
  · generalize (m * b.r - d * b.s : ℤ) = i at *
    generalize (d * b.q - m * b.p : ℤ) = j at *
    rcases Int.lt_or_le 0 i with rise | fall <;> rcases Int.lt_or_le 0 j with rise' | fall'
    · have first : (b.q : ℤ) ≤ i * b.q := le_mul_of_one_le_left (Int.natCast_nonneg _) rise
      have second : (b.s : ℤ) ≤ j * b.s := le_mul_of_one_le_left (Int.natCast_nonneg _) rise'
      omega
    · exact .inl ⟨rise, fall'⟩
    · exact .inr ⟨fall, rise'⟩
    · have first : i * b.q ≤ 0 := mul_nonpos_of_nonpos_of_nonneg fall (Int.natCast_nonneg _)
      have second : j * b.s ≤ 0 := mul_nonpos_of_nonpos_of_nonneg fall' (Int.natCast_nonneg _)
      omega

/-- Other fractions of 25 bits are as clear of the ratio as the neighbours. -/
theorem IsClear.apart (clear : b.IsClear A B excused) (encloses : b.Encloses A B) (some : 0 < m) (small : m < 2 ^ 25)
    (usual : m ≠ excused) (apart : m * A ≠ d * B) : (3 * (m * A) : ℤ) < 2 ^ 53 * |(m * A - d * B : ℤ)| := by
  obtain ⟨i, j, whole, distance, sides⟩ := encloses.combination some small d
  obtain ⟨-, lower, upper, -⟩ := encloses
  obtain ⟨nearLower, nearUpper⟩ := clear
  have distant : (m * A - d * B : ℤ) ≠ 0 := fun none => apart (by exact_mod_cast Int.sub_eq_zero.mp none)
  have factor : (0 : ℤ) ≤ A := Int.natCast_nonneg A
  have most : (3 * (m * A) : ℤ) ≤ 3 * 2 ^ 25 * A := by
    have : (m * A : ℤ) ≤ 2 ^ 25 * A := mul_le_mul_of_nonneg_right (by exact_mod_cast small.le) factor
    linarith
  rw [distance] at distant ⊢
  generalize b.below A B = x at *
  generalize b.above A B = y at *
  rcases sides with ⟨rise, fall⟩ | ⟨fall, rise⟩
  · have beyond : 0 ≤ -j * y := mul_nonneg (by omega) upper
    have least : (i * x - j * y : ℤ) ≤ |i * x - j * y| := le_abs_self _
    rcases nearLower with near | ⟨far, special⟩
    · have multiple : (m * A : ℤ) ≤ i * (b.q * A) := by
        have : j * b.s ≤ 0 := mul_nonpos_of_nonpos_of_nonneg fall (Int.natCast_nonneg _)
        have bound : (m : ℤ) ≤ i * b.q := by omega
        exact (mul_le_mul_of_nonneg_right bound factor).trans_eq (mul_assoc ..)
      nlinarith [mul_lt_mul_of_pos_left near rise]
    · rcases Int.lt_or_eq_of_le fall with less | none
      · have one : y ≤ -j * y := le_mul_of_one_le_left upper (by omega)
        have steps : 0 ≤ i * x := mul_nonneg rise.le lower
        linarith
      · -- A multiple of the lower neighbour, and not that neighbour itself.
        exfalso
        rw [none, zero_mul, add_zero] at whole
        rcases special with same | ⟨excused, long⟩
        · exact distant (by rw [same, none]; ring)
        · rcases Int.lt_or_eq_of_le (Int.add_one_le_of_lt rise) with more | one
          · have twice : (2 * b.q : ℤ) ≤ i * b.q := mul_le_mul_of_nonneg_right (by omega) (Int.natCast_nonneg _)
            omega
          · rw [← one, zero_add, one_mul] at whole
            exact usual (by omega)
  · have beyond : 0 ≤ -i * x := mul_nonneg (by omega) lower
    have least : -(i * x - j * y : ℤ) ≤ |i * x - j * y| := neg_le_abs _
    rcases nearUpper with near | ⟨far, same⟩
    · have multiple : (m * A : ℤ) ≤ j * (b.s * A) := by
        have : i * b.q ≤ 0 := mul_nonpos_of_nonpos_of_nonneg fall (Int.natCast_nonneg _)
        have bound : (m : ℤ) ≤ j * b.s := by omega
        exact (mul_le_mul_of_nonneg_right bound factor).trans_eq (mul_assoc ..)
      nlinarith [mul_lt_mul_of_pos_left near rise]
    · rcases Int.lt_or_eq_of_le fall with less | none
      · have one : x ≤ -i * x := le_mul_of_one_le_left lower (by omega)
        have steps : 0 ≤ j * y := mul_nonneg rise.le upper
        linarith
      · exact absurd (by rw [same, none]; ring) distant

end Neighbours

instance (b : Bracket) (A B : ℕ) : Decidable (b.Encloses A B) :=
  decidable_of_iff (b.r * b.q = b.p * b.s + 1 ∧ 0 ≤ b.below A B ∧ 0 ≤ b.above A B ∧ 2 ^ 25 ≤ b.q + b.s)
    ⟨fun ⟨neighbours, lower, upper, bits⟩ => ⟨neighbours, lower, upper, bits⟩,
      fun ⟨neighbours, lower, upper, bits⟩ => ⟨neighbours, lower, upper, bits⟩⟩

instance (b : Bracket) (A B excused : ℕ) : Decidable (b.IsClear A B excused) :=
  decidable_of_iff ((3 * (b.q * A) < 2 ^ 53 * b.below A B ∨
      3 * 2 ^ 25 * A < 2 ^ 53 * b.above A B ∧ (b.below A B = 0 ∨ b.q = excused ∧ 2 ^ 25 ≤ 2 * b.q)) ∧
      (3 * (b.s * A) < 2 ^ 53 * b.above A B ∨ 3 * 2 ^ 25 * A < 2 ^ 53 * b.below A B ∧ b.above A B = 0))
    ⟨fun ⟨lower, upper⟩ => ⟨lower, upper⟩, fun ⟨lower, upper⟩ => ⟨lower, upper⟩⟩

/-- How often the other fraction can be added to one, before it is past the ratio or has too many bits. -/
def steps (distance gain room : ℕ) : ℕ :=
  if gain = 0 then room else min (distance / gain) room

/-- Moves each fraction towards the ratio in turn. -/
def narrow (A B : ℕ) : ℕ → Bracket → Bracket
  | 0, b => b
  | turns + 1, ⟨p, q, r, s⟩ =>
    let t := steps (q * A - p * B) (r * B - s * A) ((2 ^ 25 - 1 - q) / s)
    let p := p + t * r
    let q := q + t * s
    let t := steps (r * B - s * A) (q * A - p * B) ((2 ^ 25 - 1 - s) / q)
    narrow A B turns ⟨p, q, r + t * p, s + t * q⟩

end Bracket

/-- The finest grid that is coarser than the gap at an exponent. -/
def coarseGrid (e : ℤ) : ℤ :=
  (e * 1233 - 1) / 4096 + 1

/-- Half the gap in units of that grid, as a fraction. -/
def halfGap (e : ℤ) : ℕ × ℕ :=
  ((unscale 1 1 (1 - e)).1 * Decimal.Interval.tenDown (coarseGrid e),
    (unscale 1 1 (1 - e)).2 * Decimal.Interval.tenUp (coarseGrid e))

/-- The one point half way that a decimal is too close to. -/
def excusedPoint (e : ℤ) : ℕ :=
  if e = -107 then 22841339 else 0

def bracketOf (e : ℤ) : Bracket :=
  Bracket.narrow (halfGap e).1 (halfGap e).2 12 ⟨0, 1, 1, 1⟩

theorem brackets_clear : ∀ i : Fin 254,
    (bracketOf (i - 149)).Encloses (halfGap (i - 149)).1 (halfGap (i - 149)).2 ∧
      (bracketOf (i - 149)).IsClear (halfGap (i - 149)).1 (halfGap (i - 149)).2 (excusedPoint (i - 149)) := by
  decide +kernel

theorem halfGap_pos (e : ℤ) : 0 < (halfGap e).2 :=
  Nat.mul_pos (unscale_pos Nat.one_pos 1 _) (Decimal.Interval.tenUp_pos _)

theorem halfGap_eq (e : ℤ) : ((halfGap e).1 / (halfGap e).2 : ℚ) = 2 ^ (e - 1) / 10 ^ coarseGrid e := by
  have power := unscale_eq 1 1 (1 - e)
  rw [Nat.cast_one, div_one, one_div, ← zpow_neg, neg_sub] at power
  rw [halfGap, Nat.cast_mul, Nat.cast_mul, mul_div_mul_comm, power, Decimal.Interval.ten_zpow_eq, div_div_eq_mul_div,
    mul_div_assoc]

/-- The next finer grid is no coarser than the gap, not even by a little. -/
theorem coarseGrid_fine : ∀ i : Fin 254,
    2 ^ 20 * (Decimal.Interval.tenUp (coarseGrid (i - 149) - 1) * (unscale 1 1 (-(i - 149))).2) ≤
      1048575 * ((unscale 1 1 (-(i - 149))).1 * Decimal.Interval.tenDown (coarseGrid (i - 149) - 1)) := by
  decide +kernel

section Exponents
variable {e : ℤ} (low : -149 ≤ e) (high : e ≤ 104)
include low high

theorem exists_exponent : ∃ i : Fin 254, (i - 149 : ℤ) = e :=
  ⟨⟨(e + 149).toNat, by omega⟩, by dsimp only; omega⟩

theorem coarseGrid_le {j : ℤ} (coarse : (2 ^ 20 - 1) * 2 ^ e < (2 ^ 20 * 10 ^ j : ℚ)) : coarseGrid e ≤ j := by
  obtain ⟨i, rfl⟩ := exists_exponent low high
  have fine := coarseGrid_fine i
  generalize (i - 149 : ℤ) = e at *
  have power := unscale_eq 1 1 (-e)
  rw [Nat.cast_one, div_one, one_div, ← zpow_neg, neg_neg] at power
  have den : (0 : ℚ) < (unscale 1 1 (-e)).2 := Nat.cast_pos.mpr (unscale_pos Nat.one_pos 1 _)
  have down : (0 : ℚ) < Decimal.Interval.tenDown (coarseGrid e - 1) :=
    Nat.cast_pos.mpr (Decimal.Interval.tenDown_pos _)
  have finer : (2 ^ 20 * 10 ^ (coarseGrid e - 1) : ℚ) ≤ (2 ^ 20 - 1) * 2 ^ e := by
    rw [← power, Decimal.Interval.ten_zpow_eq, mul_div_assoc', mul_div_assoc', div_le_div_iff₀ down den]
    have cast : (2 ^ 20 * (Decimal.Interval.tenUp (coarseGrid e - 1) * (unscale 1 1 (-e)).2) : ℚ) ≤
        1048575 * ((unscale 1 1 (-e)).1 * Decimal.Interval.tenDown (coarseGrid e - 1)) := by
      exact_mod_cast fine
    linarith
  have order : (10 : ℚ) ^ (coarseGrid e - 1) < 10 ^ j := by linarith
  have := (zpow_lt_zpow_iff_right₀ (by norm_num : (1 : ℚ) < 10)).mp order
  omega

/-- Not a little beside the point, by less than three halves of what a rounding to a double does twice. -/
def IsClearOf (q u : ℚ) : Prop :=
  q = u ∨ 3 * u < 2 ^ 53 * |q - u|

/-- Decimals on coarse grids are clear of the points half way between singles. -/
theorem isClearOf_halfway {j : ℤ} {m : ℕ} (coarse : (2 ^ 20 - 1) * 2 ^ e < (2 ^ 20 * 10 ^ j : ℚ)) (some : 0 < m)
    (small : m < 2 ^ 25) (usual : m ≠ excusedPoint e) (d : ℕ) : IsClearOf (d * 10 ^ j) (m * 2 ^ (e - 1)) := by
  obtain ⟨t, grid⟩ := Int.exists_add_of_le (coarseGrid_le low high coarse)
  obtain ⟨i, rfl⟩ := exists_exponent low high
  obtain ⟨encloses, clear⟩ := brackets_clear i
  generalize (i - 149 : ℤ) = e at *
  have den : (0 : ℚ) < (halfGap e).2 := Nat.cast_pos.mpr (halfGap_pos e)
  have unit : (0 : ℚ) < 10 ^ coarseGrid e / (halfGap e).2 := div_pos (ten_zpow_pos _) den
  have point : (m * 2 ^ (e - 1) : ℚ) = (m * (halfGap e).1 : ℕ) * (10 ^ coarseGrid e / (halfGap e).2) := by
    have ratio := halfGap_eq e
    rw [div_eq_div_iff den.ne' (ten_zpow_pos _).ne'] at ratio
    rw [mul_div_assoc', eq_div_iff den.ne', Nat.cast_mul]
    linear_combination -m * ratio
  have decimal : (d * 10 ^ j : ℚ) = (d * 10 ^ t * (halfGap e).2 : ℕ) * (10 ^ coarseGrid e / (halfGap e).2) := by
    rw [grid, zpow_add₀ (by norm_num), zpow_natCast, mul_div_assoc', eq_div_iff den.ne']
    push_cast
    ring
  rw [point, decimal]
  by_cases same : m * (halfGap e).1 = d * 10 ^ t * (halfGap e).2
  · exact .inl (by rw [same])
  · refine .inr ?_
    have apart : (3 * (m * (halfGap e).1 : ℕ) : ℚ) <
        2 ^ 53 * |((m * (halfGap e).1 : ℕ) - (d * 10 ^ t * (halfGap e).2 : ℕ) : ℚ)| := by
      have whole := clear.apart encloses some small usual same
      exact_mod_cast whole
    rw [← sub_mul, abs_mul, abs_of_pos unit, ← mul_assoc, ← mul_assoc, abs_sub_comm]
    exact mul_lt_mul_of_pos_right apart unit

end Exponents

end Onboard
