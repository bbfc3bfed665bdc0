import Onboard.Proofs.Json.Received
import Onboard.Wire.Basic

/-! Reading with one correct rounding, and where receivers read no differently. A receiver takes the digits of a literal
as one number and scales it by a power of ten. Where both are doubles, scaling rounds but once, as an exact reader
does, and a double of few digits comes out as it was. -/

namespace Onboard

open BinaryFormat (double)

namespace Json

namespace Literal

/-- With a whole number and a power that are exact, scaling rounds once, as a decimal is rounded. -/
theorem scale_exact {n : ℕ} {e : ℤ} (some : 0 < n) (few : n < 2 ^ 53) (near : e.natAbs ≤ 22) :
    Double.magnitude (scale (Double.ofNat n) e) = double.roundDecimal n e ∧
      Double.isNegative (scale (Double.ofNat n) e) = false := by
  have digits := rounds_ofNat some few
  have power := rounds_powerOfTen (near.trans (by decide))
  have whole := value_ofNat some few
  have exact := value_powerOfTen near
  have low : (2 : ℚ) ^ (-100 : ℤ) ≤ n * 10 ^ e := by
    calc
      (2 : ℚ) ^ (-100 : ℤ) ≤ 1 * 10 ^ (-22 : ℤ) := by norm_num
      _ ≤ n * 10 ^ e := mul_le_mul (by exact_mod_cast some) (zpow_le_zpow_right₀ (by norm_num) (by omega))
        (by positivity) (Nat.cast_nonneg n)
  have high : (n * 10 ^ e : ℚ) < 2 ^ (255 : ℤ) := by
    calc
      (n * 10 ^ e : ℚ) ≤ 2 ^ 53 * 10 ^ (22 : ℤ) := mul_le_mul (by exact_mod_cast few.le)
        (zpow_le_zpow_right₀ (by norm_num) (by omega)) (ten_zpow_pos e).le (by norm_num)
      _ < 2 ^ (255 : ℤ) := by norm_num
  obtain ⟨num, den, positive, value, same⟩ := BinaryFormat.roundDecimal_eq ((two_zpow_le (by decide)).trans low)
    (high.trans_le (two_zpow_le (by decide)))
  have nonzero : 0 < num := pos_of_two_zpow_le ((low.trans_eq value.symm).trans_eq (div_eq_mul_inv ..))
  rw [same, scale, dif_pos (near.trans (by decide))]
  split
  · next up =>
    rw [ten_zpow_up up, ← whole, ← exact] at value
    have nearest := Double.mul_nearest digits.finite power.finite nonzero positive value
    rwa [digits.isNegative, power.isNegative] at nearest
  · next down =>
    rw [ten_zpow_down down, ← div_eq_mul_inv, ← whole, ← exact] at value
    have nearest := Double.div_nearest digits.finite power.finite nonzero positive value
    rwa [digits.isNegative, power.isNegative] at nearest

/-- Zeros are left as they are. -/
theorem scale_zero {e : ℤ} (near : e.natAbs ≤ 22) : Double.magnitude (scale (Double.ofNat 0) e) = 0 ∧
    Double.isNegative (scale (Double.ofNat 0) e) = false := by
  have powers : ∀ k : Fin 23, Double.magnitude (Double.ofNat 0 * powerOfTen k) = 0 ∧
      Double.isNegative (Double.ofNat 0 * powerOfTen k) = false ∧ Double.magnitude (Double.ofNat 0 / powerOfTen k) = 0 ∧
      Double.isNegative (Double.ofNat 0 / powerOfTen k) = false := by decide
  obtain ⟨product, signs, quotient, signs'⟩ := powers ⟨e.natAbs, by omega⟩
  rw [scale, dif_pos (near.trans (by decide))]
  split
  · exact ⟨product, signs⟩
  · exact ⟨quotient, signs'⟩

end Literal

/-- Whether a number is written in so few digits, and with so small an exponent, that both are doubles. -/
def hasFewDigits (x : Float) : Bool :=
  (numeral? (toBytes (Layout.wire.finite x))).any fun n => n.digits < 2 ^ 53 && n.exponent.natAbs ≤ 22

/-- A double of few digits is received as it was. -/
theorem received_of_few {x : Float} (finite : x.isFinite = true) (few : hasFewDigits x = true) : received x = x := by
  obtain ⟨⟨s, spells⟩, -⟩ := spells_finite finite
  have read := Spelling.numeral?_text spells.proper
  rw [spells.text] at read
  rw [hasFewDigits, read, Option.any_some, Bool.and_eq_true, decide_eq_true_iff, decide_eq_true_iff] at few
  obtain ⟨few, near⟩ := few
  have rounded := roundDecimal_worth (magnitude_lt finite) spells.value
  have parts : Double.magnitude (Literal.scale (Double.ofNat s.numeral.digits) s.numeral.exponent) =
      Double.magnitude x ∧
      Double.isNegative (Literal.scale (Double.ofNat s.numeral.digits) s.numeral.exponent) = false := by
    rcases Nat.eq_zero_or_pos s.numeral.digits with zero | some
    · rw [← rounded, zero]
      exact Literal.scale_zero near
    · rw [← rounded]
      exact Literal.scale_exact some few near
  have fits := few.le.trans (by decide : 2 ^ 53 ≤ Literal.most)
  rw [received, Literal.toFloat_spelled spells fits]
  generalize Literal.scale (Double.ofNat s.numeral.digits) s.numeral.exponent = z at *
  obtain ⟨same, sign⟩ := parts
  have finiteZ : z.isFinite = true := by
    rwa [Double.isFinite_iff, Double.level, same, ← Double.level, ← Double.isFinite_iff]
  split
  · next negative =>
    obtain ⟨kept, opposite⟩ := Double.neg_parts finiteZ
    exact Double.eq_of_parts (by rw [opposite, sign, negative]; rfl) (kept.trans same)
  · next positive =>
    exact Double.eq_of_parts (sign.trans (Bool.eq_false_of_not_eq_true positive).symm) same

example : hasFewDigits 0.1 = true ∧ hasFewDigits 1744949106.4788737 = false := by decide +kernel

end Json

namespace Wire
variable {α : Type} [Wire α]

/-- Reads each literal with one correct rounding, which receivers do not. -/
def readExact? (text : Bytes) : Option α :=
  (Json.parse? text).bind ofJson?

variable {message : α} (legible : Json.IsLegible (toJson message))
include legible

theorem readExact?_write : (readExact? (write message) : Option α) = ofJson? (toJson message) := by
  rw [readExact?, write, Json.parse?_print legible, Option.bind_some]

theorem read?_write : (read? (write message) : Option α) = ofJson? (toJson message).settle := by
  rw [read?, write, Json.parse?_print legible, Option.bind_some]

end Wire

end Onboard
