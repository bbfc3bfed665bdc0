import Mathlib
import Onboard.Loop.Executor
import Onboard.Proofs.Number.Signed

/-! When a limited move asks for finite velocities. Each component is approached from the measured one by a share of the
way to the target. A share of a finite way ends below the overflow, for rounding takes less from it than the share
leaves out; a way that is itself too long is infinite, and none of it is not a number. -/

namespace Onboard
open BinaryFormat (overflow)

namespace Double
open Float.Model (Format UnpackedFloat)
open Float.Model.UnpackedFloat

/-- A share of the way does not go beyond where the whole way ends, and that is not far beyond the aim. -/
theorem below_overflow {C T D S P : ℚ} (start : C ≤ overflow - 2 ^ (970 : ℤ)) (aim : T ≤ overflow - 2 ^ (970 : ℤ))
    (way : |D - (T - C)| ≤ 2 ^ (970 : ℤ)) (nonneg : 0 ≤ S) (below : 2 ^ 53 * S ≤ 2 ^ 53 - 1)
    (near : 2 ^ 53 * |P - D * S| ≤ |D * S| + 2 ^ (-1022 : ℤ)) : C + P < overflow := by
  have room : (2 : ℚ) ≤ 2 ^ (970 : ℤ) := by
    rw [show (970 : ℤ) = 1 + 969 by rfl, two_zpow_add, zpow_one]
    exact le_mul_of_one_le_right zero_le_two (one_le_zpow₀ one_le_two (by decide))
  have tiny : (2 : ℚ) ^ (-1022 : ℤ) < 1 / 2 ^ 54 := by
    rw [show (1 / 2 ^ 54 : ℚ) = 2 ^ (-54 : ℤ) by norm_num, two_zpow_lt_iff]
    decide
  have past := (abs_le.mp way).2
  have rounded := le_abs_self (P - D * S)
  generalize (2 : ℚ) ^ (970 : ℤ) = unit at *
  generalize (2 : ℚ) ^ (-1022 : ℤ) = least at *
  rcases le_or_gt D 0 with back | forward
  · have product : D * S ≤ 0 := mul_nonpos_of_nonpos_of_nonneg back nonneg
    rw [abs_of_nonpos product] at near
    linarith
  · have product : 0 ≤ D * S := mul_nonneg forward.le nonneg
    have part : 2 ^ 53 * (D * S) ≤ (2 ^ 53 - 1) * D := by
      have := mul_le_mul_of_nonneg_left below forward.le
      linarith
    rw [abs_of_nonneg product] at near
    -- Of a long way the share leaves out more than is rounded; for a short one there is room in any case.
    rcases le_or_gt 1 D with long | short
    · linarith
    · linarith

section Approach
variable {c t s : Float} (finiteC : c.isFinite = true) (finiteT : t.isFinite = true)
include finiteC finiteT

theorem isFinite_approach (way : (t - c).isFinite = true) (share : IsShare s) : (c + (t - c) * s).isFinite = true := by
  have gap := (approximates_sub finiteT finiteC).gap way
  have part := approximates_mul way share.finite
  have small : |toRat (t - c) * toRat s| < overflow := by
    rw [abs_mul, abs_of_nonneg share.nonneg]
    refine (mul_le_of_le_one_right (abs_nonneg _) share.le_one).trans_lt ?_
    exact (abs_toRat_le way).trans_lt (sub_lt_self _ (two_zpow_pos 970))
  have finite := part.finite.mpr small
  have near := part.near finite
  obtain ⟨lowC, highC⟩ := abs_le.mp (abs_toRat_le finiteC)
  obtain ⟨lowT, highT⟩ := abs_le.mp (abs_toRat_le finiteT)
  refine (approximates_add finiteC finite).finite.mpr (abs_lt.mpr ⟨?_, ?_⟩)
  · -- The same with all signs changed.
    have gap' : |-toRat (t - c) - (-toRat t - -toRat c)| ≤ 2 ^ (970 : ℤ) := by
      rw [← abs_neg]
      convert gap using 2
      ring
    have near' : 2 ^ 53 * |-toRat ((t - c) * s) - -toRat (t - c) * toRat s| ≤
        |-toRat (t - c) * toRat s| + 2 ^ (-1022 : ℤ) := by
      rw [neg_mul, abs_neg, neg_sub_neg, abs_sub_comm]
      exact near
    have mirrored := below_overflow (neg_le.mpr lowC) (neg_le.mpr lowT) gap' share.nonneg share.below near'
    linarith
  · exact below_overflow highC highT gap share.nonneg share.below near

/-- No part of a way that is too long leads anywhere, not even none of it. -/
theorem not_isFinite_approach (way : (t - c).isFinite = false) (sign : Sign) :
    (c + (t - c) * ⟨.pack (.zero sign)⟩).isFinite = false := by
  have unpacked := unpack_infinite (approximates_sub finiteT finiteC).number way
  have product : (t - c) * ⟨.pack (.zero sign)⟩ = ⟨.pack .notANumber⟩ := by
    change (⟨.pack (mul Format.binary64 (t - c).toModel.unpack (Float.Model.pack (.zero sign)).unpack)⟩ : Float) = _
    rw [unpacked]
    cases sign <;> rfl
  have sum : c + ⟨.pack .notANumber⟩ = ⟨.pack .notANumber⟩ := by
    change (⟨.pack (add Format.binary64 c.toModel.unpack .notANumber)⟩ : Float) = _
    cases c.toModel.unpack <;> rfl
  rw [product, sum]
  decide

end Approach

end Double

section Limit
variable {measured target : Velocity} {maxAcceleration dt : Float}

/-- The limit is in force and finite, but a component of the change that it is to be compared with rounds to no finite
number. -/
def ChangeOverflows (measured target : Velocity) (maxAcceleration dt : Float) : Prop :=
  0.0 < maxAcceleration ∧ 0.0 < dt ∧ Double.toRat maxAcceleration * Double.toRat dt < overflow ∧
    (overflow ≤ |Double.toRat target.x - Double.toRat measured.x| ∨
      overflow ≤ |Double.toRat target.y - Double.toRat measured.y|)

theorem Velocity.isFinite_iff {v : Velocity} :
    v.isFinite = true ↔ v.x.isFinite = true ∧ v.y.isFinite = true ∧ v.angular.isFinite = true := by
  rw [Velocity.isFinite, Bool.and_eq_true, Bool.and_eq_true, and_assoc]

theorem limitAcceleration_of_unlimited (unlimited : ¬ (0.0 < maxAcceleration ∧ 0.0 < dt)) :
    limitAcceleration measured target maxAcceleration dt = target :=
  if_neg unlimited

theorem angular_limitAcceleration :
    (limitAcceleration measured target maxAcceleration dt).angular = target.angular := by
  unfold limitAcceleration
  dsimp only
  split_ifs <;> rfl

/-- Finite numbers with a limit in force. -/
structure IsLimited (measured target : Velocity) (maxAcceleration dt : Float) : Prop where
  measured : measured.isFinite = true
  target : target.isFinite = true
  acceleration : maxAcceleration.isFinite = true
  step : dt.isFinite = true
  acceleration_pos : 0.0 < maxAcceleration
  step_pos : 0.0 < dt

namespace IsLimited
variable (limited : IsLimited measured target maxAcceleration dt)
include limited

theorem number_ways : (target.x - measured.x).isNaN = false ∧ (target.y - measured.y).isNaN = false := by
  obtain ⟨finiteX, finiteY, -⟩ := Velocity.isFinite_iff.mp limited.measured
  obtain ⟨finiteX', finiteY', -⟩ := Velocity.isFinite_iff.mp limited.target
  constructor
  · exact (Double.approximates_sub finiteX' finiteX).number
  · exact (Double.approximates_sub finiteY' finiteY).number

theorem change_parts : (Double.hypot (target.x - measured.x) (target.y - measured.y)).isNaN = false ∧
    Double.isNegative (Double.hypot (target.x - measured.x) (target.y - measured.y)) = false := by
  obtain ⟨numberX, numberY⟩ := limited.number_ways
  exact Double.hypot_parts numberX numberY

theorem most_parts : (maxAcceleration * dt).isNaN = false ∧ Double.isNegative (maxAcceleration * dt) = false :=
  Double.mul_parts limited.acceleration_pos limited.step_pos limited.acceleration limited.step

/-- No change is too long for an infinite limit. -/
theorem eq_target (infinite : (maxAcceleration * dt).isFinite = false) :
    limitAcceleration measured target maxAcceleration dt = target := by
  obtain ⟨numberChange, signChange⟩ := limited.change_parts
  obtain ⟨numberMost, signMost⟩ := limited.most_parts
  have within := Double.le_of_infinite numberChange numberMost signChange signMost infinite
  unfold limitAcceleration
  dsimp only
  rw [if_pos ⟨limited.acceleration_pos, limited.step_pos⟩, if_pos within]

theorem isFinite (finite : (maxAcceleration * dt).isFinite = true)
    (wayX : (target.x - measured.x).isFinite = true) (wayY : (target.y - measured.y).isFinite = true) :
    (limitAcceleration measured target maxAcceleration dt).isFinite = true := by
  obtain ⟨numberChange, signChange⟩ := limited.change_parts
  obtain ⟨numberMost, signMost⟩ := limited.most_parts
  unfold limitAcceleration
  dsimp only
  rw [if_pos ⟨limited.acceleration_pos, limited.step_pos⟩]
  split
  · exact limited.target
  · next more =>
    have share := Double.isShare_div signMost signChange finite (Double.lt_of_not_le numberMost numberChange more)
    obtain ⟨finiteX, finiteY, -⟩ := Velocity.isFinite_iff.mp limited.measured
    obtain ⟨finiteX', finiteY', finiteAngular⟩ := Velocity.isFinite_iff.mp limited.target
    apply Velocity.isFinite_iff.mpr
    refine ⟨?_, ?_, finiteAngular⟩
    · exact Double.isFinite_approach finiteX finiteX' wayX share
    · exact Double.isFinite_approach finiteY finiteY' wayY share

/-- Of an infinite change the limit is no part, and none of an infinite way is not a number. -/
theorem not_isFinite (finite : (maxAcceleration * dt).isFinite = true)
    (long : ¬ ((target.x - measured.x).isFinite = true ∧ (target.y - measured.y).isFinite = true)) :
    ¬ (limitAcceleration measured target maxAcceleration dt).isFinite = true := by
  obtain ⟨numberX, numberY⟩ := limited.number_ways
  obtain ⟨-, signMost⟩ := limited.most_parts
  have change := Double.hypot_infinite numberX numberY long
  have more : ¬ Double.infinity ≤ maxAcceleration * dt := by
    intro within
    exact absurd (Double.isFinite_of_le (by decide) signMost within finite) (by decide)
  obtain ⟨sign, share⟩ := Double.div_infinite (y := Double.infinity) finite (by decide) (by decide)
  obtain ⟨finiteX, finiteY, -⟩ := Velocity.isFinite_iff.mp limited.measured
  obtain ⟨finiteX', finiteY', -⟩ := Velocity.isFinite_iff.mp limited.target
  unfold limitAcceleration
  dsimp only
  rw [if_pos ⟨limited.acceleration_pos, limited.step_pos⟩, change, if_neg more, share]
  intro reached
  obtain ⟨reachedX, reachedY, -⟩ := Velocity.isFinite_iff.mp reached
  rcases not_and_or.mp long with wayX | wayY
  · have lost := Double.not_isFinite_approach finiteX finiteX' (Bool.eq_false_of_not_eq_true wayX) sign
    exact Bool.false_ne_true (lost.symm.trans reachedX)
  · have lost := Double.not_isFinite_approach finiteY finiteY' (Bool.eq_false_of_not_eq_true wayY) sign
    exact Bool.false_ne_true (lost.symm.trans reachedY)

end IsLimited

theorem changeOverflows_iff (finiteMeasured : measured.isFinite = true) (finiteTarget : target.isFinite = true)
    (finiteLimit : maxAcceleration.isFinite = true) (finiteStep : dt.isFinite = true) :
    ChangeOverflows measured target maxAcceleration dt ↔
      0.0 < maxAcceleration ∧ 0.0 < dt ∧ (maxAcceleration * dt).isFinite = true ∧
        ¬ ((target.x - measured.x).isFinite = true ∧ (target.y - measured.y).isFinite = true) := by
  obtain ⟨finiteX, finiteY, -⟩ := Velocity.isFinite_iff.mp finiteMeasured
  obtain ⟨finiteX', finiteY', -⟩ := Velocity.isFinite_iff.mp finiteTarget
  refine and_congr_right fun limit => and_congr_right fun step => ?_
  have positive := mul_pos (Double.toRat_pos limit) (Double.toRat_pos step)
  rw [(Double.approximates_mul finiteLimit finiteStep).finite, (Double.approximates_sub finiteX' finiteX).finite,
    (Double.approximates_sub finiteY' finiteY).finite, abs_of_pos positive, not_and_or, not_lt, not_lt]

theorem isFinite_limitAcceleration_iff (finiteMeasured : measured.isFinite = true)
    (finiteTarget : target.isFinite = true) (finiteLimit : maxAcceleration.isFinite = true)
    (finiteStep : dt.isFinite = true) :
    (limitAcceleration measured target maxAcceleration dt).isFinite = true ↔
      ¬ ChangeOverflows measured target maxAcceleration dt := by
  rw [changeOverflows_iff finiteMeasured finiteTarget finiteLimit finiteStep]
  by_cases on : 0.0 < maxAcceleration ∧ 0.0 < dt
  · have limited : IsLimited measured target maxAcceleration dt :=
      ⟨finiteMeasured, finiteTarget, finiteLimit, finiteStep, on.1, on.2⟩
    cases finite : (maxAcceleration * dt).isFinite with
    | false =>
      rw [limited.eq_target finite]
      apply iff_of_true finiteTarget
      rintro ⟨-, -, less, -⟩
      exact Bool.false_ne_true less
    | true =>
      by_cases ways : (target.x - measured.x).isFinite = true ∧ (target.y - measured.y).isFinite = true
      · apply iff_of_true (limited.isFinite finite ways.1 ways.2)
        rintro ⟨-, -, -, long⟩
        exact long ways
      · apply iff_of_false (limited.not_isFinite finite ways)
        intro fits
        exact fits ⟨on.1, on.2, rfl, ways⟩
  · rw [limitAcceleration_of_unlimited on]
    apply iff_of_true finiteTarget
    rintro ⟨acceleration, step, -⟩
    exact on ⟨acceleration, step⟩

end Limit

namespace Executor
variable {measured target : Velocity} {maxAcceleration dribbler dt : Float}

/-- Of finite numbers a move makes a finite demand, unless the change of velocity that it limits overflows. -/
theorem move_demand_finite_iff (e : Executor) (power : ChickerCommand) (finiteMeasured : measured.isFinite = true)
    (finiteTarget : target.isFinite = true) (finiteLimit : maxAcceleration.isFinite = true)
    (finiteDribbler : dribbler.isFinite = true) (finiteStep : dt.isFinite = true) :
    let demand := ((e.start (.move target maxAcceleration dribbler power)).step measured dt).motor
    (demand.velocity.isFinite = true ∧ demand.dribbler.isFinite = true ↔
        ¬ ChangeOverflows measured target maxAcceleration dt) ∧
      demand.velocity.angular = target.angular ∧
      (¬ (0.0 < maxAcceleration ∧ 0.0 < dt) → demand.velocity = target) := by
  refine ⟨?_, angular_limitAcceleration, limitAcceleration_of_unlimited⟩
  rw [← isFinite_limitAcceleration_iff finiteMeasured finiteTarget finiteLimit finiteStep]
  exact and_iff_left finiteDribbler

/-- The whole way is rounded up and would end beyond the greatest double, but the part within the limit does not. -/
theorem move_to_greatest_finite :
    let target : Velocity := ⟨1.7976931348623157e308, 0.0, 0.0⟩
    let measured : Velocity := ⟨2.9937604643020797e292, 0.0, 0.0⟩
    let limit : Float := 1.7976931348623153e308
    let demand := ((initial.start (.move target limit 500.0 .idle)).step measured 1.0).motor
    (measured.x + (target.x - measured.x)).isFinite = false ∧
      (measured.isFinite = true ∧ target.isFinite = true ∧ limit.isFinite = true ∧ Float.isFinite 500.0 = true ∧
        Float.isFinite 1.0 = true) ∧ demand.velocity.isFinite = true ∧ demand.dribbler.isFinite = true := by
  intro target measured limit demand
  have beyond : (measured.x + (target.x - measured.x)).isFinite = false := by decide +kernel
  have finiteMeasured : measured.isFinite = true := by decide +kernel
  have finiteTarget : target.isFinite = true := by decide +kernel
  have finiteLimit : limit.isFinite = true := by decide +kernel
  have way : (target.x - measured.x).isFinite = true ∧ (target.y - measured.y).isFinite = true := by decide +kernel
  refine ⟨beyond, ⟨finiteMeasured, finiteTarget, finiteLimit, by decide, by decide⟩, ?_⟩
  obtain ⟨finite_iff, -, -⟩ :=
    move_demand_finite_iff initial .idle finiteMeasured finiteTarget finiteLimit
      (by decide : Float.isFinite 500.0 = true) (by decide : Float.isFinite 1.0 = true)
  apply finite_iff.mpr
  rw [changeOverflows_iff finiteMeasured finiteTarget finiteLimit (by decide)]
  rintro ⟨-, -, -, long⟩
  exact long way

/-- Between opposite velocities near the greatest double the robot is asked for no number at all. -/
theorem opposed_move_not_a_number :
    let target : Velocity := ⟨1e308, 0.0, 0.0⟩
    let measured : Velocity := ⟨-1e308, 0.0, 0.0⟩
    let demand := ((initial.start (.move target 1.0 0.0 .idle)).step measured 0.005).motor
    (target.isFinite = true ∧ measured.isFinite = true ∧ Float.isFinite 1.0 = true ∧ Float.isFinite 0.0 = true ∧
      Float.isFinite 0.005 = true) ∧ demand.velocity.x.isNaN = true := by
  decide +kernel

example : ((initial.start (.move ⟨3.0, 4.0, 1.0⟩ 10.0 500.0 .idle)).step .zero 0.25).motor =
    ⟨⟨1.5, 2.0, 1.0⟩, 500.0⟩ := by
  decide +kernel

end Executor

end Onboard
