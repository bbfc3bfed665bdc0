import Onboard.Loop.Staleness
import Onboard.Network.LossWindow
import Onboard.Proofs.Json.Literal

/-! Numbers that are finite by their making: spans of time, the estimate of lost sets, and whatever comes off the
wire. -/

namespace Onboard

/-- Seconds have 64 bits. -/
def Duration.limit : Duration := 0x10000000000000000 * nanosPerSecond

namespace Duration

theorem level_toSeconds {d : Duration} (bound : d < limit) : Double.level (toSeconds d) ≤ 1089 := by
  have whole : d / nanosPerSecond ≤ Json.Literal.most := by
    have below : d / nanosPerSecond < 0x10000000000000000 := (Nat.div_lt_iff_lt_mul (by decide)).mpr bound
    exact Nat.le_of_lt_succ below
  have part : d % nanosPerSecond ≤ Json.Literal.most :=
    (Nat.mod_lt d (by decide)).le.trans (by decide)
  have billion : Double.level 1000000000.0 = 1052 := by decide
  have fraction : Double.level (Double.ofNat (d % nanosPerSecond) / 1000000000.0) ≤ 1087 :=
    Double.level_div (Json.Literal.level_ofNat part) billion.ge (by decide) (by decide) (by decide)
      (by rw [billion]; decide) (by decide) (by decide)
  exact Double.level_add (Json.Literal.level_ofNat whole) fraction (by decide) (by decide)

theorem isFinite_toSeconds {d : Duration} (bound : d < limit) : (toSeconds d).isFinite = true :=
  Double.isFinite_iff.mpr ((level_toSeconds bound).trans_lt (by decide))

theorem isFinite_toMs {d : Duration} (bound : d < limit) : (toMs d).isFinite = true := by
  have thousand : Double.level 1000.0 ≤ 1032 := by decide
  have level : Double.level (toMs d) ≤ 1100 :=
    Double.level_mul (level_toSeconds bound) thousand (by decide) (by decide) (by decide) (by decide) (by decide)
      (by decide)
  exact Double.isFinite_iff.mpr (level.trans_lt (by decide))

end Duration

theorem Instant.since_le (now earlier : Instant) : now.since earlier ≤ now :=
  Nat.sub_le now earlier

theorem FireTimes.isFinite_msSince (fired : Option Instant) {now : Instant} (bound : now < Duration.limit) :
    (msSince fired now).isFinite = true := by
  cases fired with
  | none => exact Double.isFinite_iff.mpr (by decide : Double.level 0.0 < 2047)
  | some last => exact Duration.isFinite_toMs ((now.since_le last).trans_lt bound)

namespace Double

theorem isFinite_of_between {x : Float} (least : 0.0 ≤ x) (greatest : x ≤ 100.0) : x.isFinite = true := by
  obtain ⟨zero, number⟩ := number_of_le least
  have hundred := (number_of_le greatest).2
  rw [le_iff zero number] at least
  rw [le_iff number hundred] at greatest
  have bottom : place 0.0 = 0 := by decide
  have top : place 100.0 = 0x4059000000000000 := by decide
  rw [isFinite_iff, level]
  unfold place at least greatest bottom top
  split at least <;> omega

/-- A share in percent is one whatever it is computed from. -/
theorem isFinite_clamp (x : Float) : (min (max x 0.0) 100.0).isFinite = true := by
  have zero : (0.0 : Float).isNaN = false := by decide
  have hundred : (100.0 : Float).isNaN = false := by decide
  have order : (0.0 : Float) ≤ 100.0 := by decide
  have low : 0.0 ≤ max x 0.0 := by
    unfold max
    cases number : x.isNaN with
    | true => exact le_refl zero
    | false =>
      simp only [zero, Bool.false_eq_true, if_false]
      split
      · exact le_refl zero
      · next above => exact le_of_not_lt number zero above
  obtain ⟨-, number⟩ := number_of_le low
  unfold min
  simp only [number, hundred, Bool.false_eq_true, if_false]
  split
  · exact isFinite_of_between order (le_refl hundred)
  · next below => exact isFinite_of_between low (le_of_not_lt hundred number below)

end Double

theorem LossWindow.isFinite_percentage {w : LossWindow} (estimate : w.percentage = .ok loss) :
    loss.isFinite = true := by
  unfold percentage at estimate
  split at estimate
  · next smallest largest _ _ =>
    cases counted : addUInt64 (largest - smallest) 1 with
    | error e =>
      rw [counted] at estimate
      contradiction
    | ok expected =>
      rw [counted] at estimate
      cases estimate
      exact Double.isFinite_clamp _
  · cases estimate
    decide

end Onboard
