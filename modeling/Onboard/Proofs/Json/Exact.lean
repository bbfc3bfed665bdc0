import Onboard.Proofs.Json.Settled
import Onboard.Proofs.Number.Single

/-! Numbers that are read with one correct rounding. The literal that a finite double is written as gives the same
double again, bit for bit. That of a finite single is rounded twice and gives the same single, for all but one. -/

namespace Onboard.Json

open BinaryFormat (double)

theorem near_worth {magnitude : ℕ} (some : 0 < magnitude) :
    Near double (double.decode magnitude) (Layout.wire.worth .double magnitude) := by
  obtain ⟨k, exponent, same, small, normal⟩ := double.decoded magnitude
  rw [BinaryFormat.precision_double] at *
  rw [BinaryFormat.minExponent_double] at exponent
  have positive : 0 < (double.decode magnitude).coefficient := by omega
  rw [Layout.worth, if_neg some.ne']
  exact (Decimal.holds_shortest double _ positive (by omega) (by omega)).2.near positive

theorem roundDecimal_worth {magnitude digits : ℕ} {exponent : ℤ} (finite : magnitude < double.infinity)
    (value : (digits * 10 ^ exponent : ℚ) = Layout.wire.worth .double magnitude) :
    double.roundDecimal digits exponent = magnitude := by
  rcases Nat.eq_zero_or_pos magnitude with rfl | some
  · rw [Layout.worth, if_pos rfl, mul_eq_zero, or_iff_left (ten_zpow_pos exponent).ne', Nat.cast_eq_zero] at value
    rw [value, BinaryFormat.roundDecimal, if_pos rfl]
  · exact BinaryFormat.roundDecimal_of_near some finite (value ▸ near_worth some)

/-- A literal is read as the double that its decimal rounds to. -/
theorem toFloat?_rounded {text : List Char} {s : Spelling} (spells : Layout.Spells negative value text s)
    {magnitude : ℕ} (finite : magnitude < double.infinity)
    (rounded : double.roundDecimal s.numeral.digits s.numeral.exponent = magnitude) :
    toFloat? (.number (toBytes text)) = some (Double.ofParts negative magnitude) := by
  have read := Spelling.numeral?_text spells.proper
  rw [spells.text] at read
  have number : s.numeral.toFloat = Double.ofParts negative magnitude := by
    rw [Numeral.toFloat, Double.ofDecimal, rounded, ← spells.negative]
    rfl
  have finite : (Double.ofParts negative magnitude).isFinite = true := by
    rw [Double.isFinite_iff, Double.level, Double.magnitude_ofParts _ finite]
    exact (Nat.div_lt_iff_lt_mul (by decide)).mpr finite
  simp only [toFloat?, read, Option.bind_eq_bind, Option.bind_some, number, if_pos finite]

/-- A finite double is read back as it was written. -/
theorem toFloat?_ofFloat_eq {x : Float} (finite : x.isFinite = true) : toFloat? (ofFloat x) = some x := by
  obtain ⟨⟨s, spells⟩, -⟩ := spells_finite finite
  have small := magnitude_lt finite
  rw [ofFloat_eq finite, toFloat?_rounded spells small (roundDecimal_worth small spells.value),
    Double.ofParts_magnitude finite]

/-- What is read back is the number that was written, if it was finite. -/
theorem toFloat?_ofFloat_iff (x : Float) : toFloat? (ofFloat x) = some x ↔ x.isFinite = true := by
  refine ⟨fun read => ?_, toFloat?_ofFloat_eq⟩
  by_contra infinite
  rw [ofFloat, if_neg infinite] at read
  contradiction

/-- A receiver's double is the number that was written, if its arithmetic did not round it away. -/
theorem toFloat?_settle_iff (x : Float) :
    toFloat? (settle (ofFloat x)) = some x ↔ x.isFinite = true ∧ received x = x := by
  by_cases finite : x.isFinite = true
  · rw [settle_ofFloat finite, toFloat?_ofFloat_eq (isFinite_received finite), Option.some_inj]
    exact (and_iff_right finite).symm
  · rw [ofFloat, if_neg finite]
    exact iff_of_false (Option.some_ne_none x).symm fun kept => finite kept.1

section Singles
variable {x : Single}

theorem toSingle?_ofSingle_eq (finite : x.isFinite = true) (usual : x.magnitude ≠ Decimal.excusedMagnitude) :
    toSingle? (ofSingle x) = some x := by
  obtain ⟨⟨s, spells⟩, top⟩ := spells_finiteSingle finite
  have bound := top.trans_lt Decimal.nearTop_lt
  have small := BinaryFormat.roundDecimal_lt_infinity (spells.value.trans_lt bound)
  have level : Double.level (Double.ofParts x.isNegative (double.roundDecimal s.numeral.digits s.numeral.exponent)) <
      2047 := by
    rw [Double.level, Double.magnitude_ofParts _ small]
    exact (Nat.div_lt_iff_lt_mul (by decide)).mpr small
  have finiteY := Double.isFinite_iff.mpr level
  rw [ofSingle_eq finite, toSingle?_spelled spells, toFloat?_rounded spells small rfl, Option.map_some]
  refine congrArg some ?_
  rcases Nat.eq_zero_or_pos x.magnitude with zero | positive
  · have none : double.roundDecimal s.numeral.digits s.numeral.exponent = 0 := by
      have value := spells.value
      rw [Layout.worth, if_pos zero, mul_eq_zero, or_iff_left (ten_zpow_pos _).ne', Nat.cast_eq_zero] at value
      rw [value, BinaryFormat.roundDecimal, if_pos rfl]
    have back (negative : Bool) : Single.ofFloat (Double.ofParts negative 0) = Single.ofParts negative 0 := by
      cases negative <;> decide
    have whole := x.ofParts_magnitude
    rw [zero] at whole
    rw [none, back, whole]
  · refine Single.ofFloat_of_close positive finite usual finiteY (Double.isNegative_ofParts _ small) ?_
    rw [Double.scaled, Double.magnitude_ofParts _ small]
    have value := spells.value
    rw [Layout.worth, if_neg positive.ne'] at value bound
    change _ = (Decimal.shortest .single .even x.magnitude).value at value
    rw [← value]
    refine BinaryFormat.closeTo_roundDecimal ?_ (value.trans_lt bound)
    rw [value]
    exact (two_zpow_le (by decide)).trans (Decimal.le_shortest_single positive)

/-- Read by way of a double, one single is off by a unit of its last bit. -/
theorem toSingle?_excused (negative : Bool) : toSingle? (ofSingle (.ofParts negative Decimal.excusedMagnitude)) =
    some (.ofParts negative (Decimal.excusedMagnitude + 1)) := by
  cases negative <;> decide

theorem toSingle?_ofSingle_iff (x : Single) :
    toSingle? (ofSingle x) = some x ↔ x.isFinite = true ∧ x.magnitude ≠ Decimal.excusedMagnitude := by
  refine ⟨fun read => ⟨?_, fun same => ?_⟩, fun ⟨finite, usual⟩ => toSingle?_ofSingle_eq finite usual⟩
  · by_contra infinite
    rw [ofSingle, if_neg infinite] at read
    contradiction
  · have whole := x.ofParts_magnitude
    rw [same] at whole
    rw [← whole, toSingle?_excused] at read
    revert read
    cases x.isNegative <;> decide

end Singles

end Onboard.Json
