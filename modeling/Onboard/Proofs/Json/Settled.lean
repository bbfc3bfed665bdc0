import Onboard.Proofs.Json.Literal

/-! Numbers on the wire. What a number is written as is a literal for the reader, and after a receiver has settled it
there is a number just where there was a finite one. -/

namespace Onboard.Json

open BinaryFormat (double)

theorem magnitude_lt {x : Float} (finite : x.isFinite = true) : Double.magnitude x < double.infinity := by
  rw [Double.isFinite_iff, Double.level, Nat.div_lt_iff_lt_mul (by decide)] at finite
  exact finite

/-- What a finite number is written as spells a decimal near it. -/
theorem spells_finite {x : Float} (finite : x.isFinite = true) :
    (∃ s, Layout.Spells (Double.isNegative x) (Layout.wire.worth .double (Double.magnitude x))
      (Layout.wire.finite x) s) ∧
      Layout.wire.worth .double (Double.magnitude x) < BinaryFormat.overflow ∧
      (Double.magnitude x + 1 < double.infinity →
        Layout.wire.worth .double (Double.magnitude x) ≤ Decimal.nearTop) :=
  Layout.spells_double (Double.isNegative x) Layout.isPointed_wire (magnitude_lt finite)

theorem spells_finiteSingle {x : Single} (finite : x.isFinite = true) :
    (∃ s, Layout.Spells x.isNegative (Layout.wireSingle.worth .single x.magnitude)
      (Layout.wireSingle.finiteSingle x) s) ∧
      Layout.wireSingle.worth .single x.magnitude ≤ Decimal.nearTop :=
  Layout.spells_single x.isNegative Layout.isPointed_wireSingle (of_decide_eq_true finite)

theorem ofFloat_eq {x : Float} (finite : x.isFinite = true) : ofFloat x = .number (toBytes (Layout.wire.finite x)) :=
  if_pos finite

theorem ofSingle_eq {x : Single} (finite : x.isFinite = true) :
    ofSingle x = .number (toBytes (Layout.wireSingle.finiteSingle x)) :=
  if_pos finite

section Spelled
variable {negative : Bool} {value : ℚ} {text : List Char} {s : Spelling}

/-- By its form it is no whole number. -/
theorem integer?_eq_none (spells : Layout.Spells negative value text s) :
    (Literal.ofBytes (toBytes text)).integer? = none := by
  rw [← spells.text, Spelling.literal_text spells.proper]
  refine if_neg ?_
  rintro ⟨fraction, exponent, -⟩
  rcases spells.fractional with some | some
  · exact some fraction
  · exact some (Option.map_eq_none_iff.mp exponent)

theorem settle_spelled (spells : Layout.Spells negative value text s)
    (finite : (Literal.ofBytes (toBytes text)).toFloat.isFinite = true) :
    settle (.number (toBytes text)) = ofFloat (Literal.ofBytes (toBytes text)).toFloat := by
  rw [ofFloat_eq finite]
  refine congrArg Json.number ?_
  unfold settleLiteral
  dsimp only
  rw [integer?_eq_none spells, ofFloat_eq finite]

theorem toFloat?_spelled (spells : Layout.Spells negative value text s) (bound : value < BinaryFormat.overflow) :
    (toFloat? (.number (toBytes text))).isSome = true := by
  have read := Spelling.numeral?_text spells.proper
  rw [spells.text] at read
  have finite : s.numeral.toFloat.isFinite = true := by
    have small := BinaryFormat.roundDecimal_lt_infinity (spells.value.trans_lt bound)
    rw [Double.isFinite_iff, Double.level, Numeral.toFloat, Double.ofDecimal, Double.magnitude_ofParts _ small]
    exact (Nat.div_lt_iff_lt_mul (by decide)).mpr small
  simp only [toFloat?, read, Option.bind_eq_bind, Option.bind_some, if_pos finite, Option.isSome_some]

/-- A number that is not whole is read as a single by way of a double. -/
theorem toSingle?_spelled (spells : Layout.Spells negative value text s) :
    toSingle? (.number (toBytes text)) = (toFloat? (.number (toBytes text))).map Single.ofFloat := by
  unfold toSingle?
  dsimp only
  rw [integer?_eq_none spells]

end Spelled

/-- What a receiver makes of a finite number that is sent to it. -/
def received (x : Float) : Float :=
  (Literal.ofBytes (toBytes (Layout.wire.finite x))).toFloat

def receivedSingle (x : Single) : Float :=
  (Literal.ofBytes (toBytes (Layout.wireSingle.finiteSingle x))).toFloat

/-- A finite number stays one. -/
theorem isFinite_received {x : Float} (finite : x.isFinite = true) : (received x).isFinite = true := by
  obtain ⟨⟨s, spells⟩, -, bound⟩ := spells_finite finite
  by_cases below : Double.magnitude x + 1 < double.infinity
  · exact Literal.isFinite_toFloat spells (bound below)
  · have top : Double.magnitude x = double.infinity - 1 := by
      have := magnitude_lt finite
      omega
    unfold received Layout.finite
    rw [top]
    exact Literal.isFinite_toFloat_greatest _

theorem isFinite_receivedSingle {x : Single} (finite : x.isFinite = true) : (receivedSingle x).isFinite = true := by
  obtain ⟨⟨s, spells⟩, bound⟩ := spells_finiteSingle finite
  exact Literal.isFinite_toFloat spells bound

theorem settle_ofFloat {x : Float} (finite : x.isFinite = true) : settle (ofFloat x) = ofFloat (received x) := by
  obtain ⟨⟨s, spells⟩, -⟩ := spells_finite finite
  rw [ofFloat_eq finite]
  exact settle_spelled spells (isFinite_received finite)

theorem settle_ofSingle {x : Single} (finite : x.isFinite = true) :
    settle (ofSingle x) = ofFloat (receivedSingle x) := by
  obtain ⟨⟨s, spells⟩, -⟩ := spells_finiteSingle finite
  rw [ofSingle_eq finite]
  exact settle_spelled spells (isFinite_receivedSingle finite)

theorem toSingle?_ofFloat {x : Float} (finite : x.isFinite = true) :
    toSingle? (ofFloat x) = (toFloat? (ofFloat x)).map Single.ofFloat := by
  obtain ⟨⟨s, spells⟩, -⟩ := spells_finite finite
  rw [ofFloat_eq finite]
  exact toSingle?_spelled spells

theorem toFloat?_ofFloat {x : Float} (finite : x.isFinite = true) : (toFloat? (ofFloat x)).isSome = true := by
  obtain ⟨⟨s, spells⟩, bound, -⟩ := spells_finite finite
  rw [ofFloat_eq finite]
  exact toFloat?_spelled spells bound

/-- A receiver finds a number just where there was a finite one. -/
@[simp]
theorem isSome_toFloat? (x : Float) : (toFloat? (settle (ofFloat x))).isSome = x.isFinite := by
  cases finite : x.isFinite with
  | true =>
    rw [settle_ofFloat finite]
    exact toFloat?_ofFloat (isFinite_received finite)
  | false =>
    have null : ofFloat x = .null := if_neg (by simp [finite])
    rw [null]
    rfl

@[simp]
theorem isSome_toSingle? (x : Single) : (toSingle? (settle (ofSingle x))).isSome = x.isFinite := by
  cases finite : x.isFinite with
  | true =>
    have still := isFinite_receivedSingle finite
    have read := toFloat?_ofFloat still
    rw [settle_ofSingle finite, toSingle?_ofFloat still, Option.isSome_map]
    exact read
  | false =>
    have null : ofSingle x = .null := if_neg (by simp [finite])
    rw [null]
    rfl

theorem isLegible_spelled {negative : Bool} {value : ℚ} {text : List Char} {s : Spelling}
    (spells : Layout.Spells negative value text s) : IsLegible (.number (toBytes text)) := by
  rw [← spells.text]
  exact Spelling.isLiteral spells.proper

theorem isLegible_ofFloat (x : Float) : IsLegible (ofFloat x) := by
  by_cases finite : x.isFinite = true
  · obtain ⟨⟨s, spells⟩, -⟩ := spells_finite finite
    rw [ofFloat_eq finite]
    exact isLegible_spelled spells
  · rw [ofFloat, if_neg finite]
    trivial

theorem isLegible_ofSingle (x : Single) : IsLegible (ofSingle x) := by
  by_cases finite : x.isFinite = true
  · obtain ⟨⟨s, spells⟩, -⟩ := spells_finiteSingle finite
    rw [ofSingle_eq finite]
    exact isLegible_spelled spells
  · rw [ofSingle, if_neg finite]
    trivial

def wholeSpelling (n : ℕ) : Spelling :=
  ⟨false, Decimal.digitList n, [], none⟩

theorem isProper_wholeSpelling (n : ℕ) : (wholeSpelling n).IsProper where
  whole := areDigits_digitList n
  some := digitList_ne_nil n
  leading zero := by
    rcases Nat.eq_zero_or_pos n with rfl | positive
    · rfl
    · exact absurd zero (head?_digitList positive)
  fraction := nofun
  exponent := nofun

theorem text_wholeSpelling (n : ℕ) : (wholeSpelling n).text = Decimal.digitList n := by
  simp [wholeSpelling, Spelling.text, Spelling.tail, Spelling.signText, Spelling.fractionText, Spelling.exponentText]

theorem ofNat_eq (n : ℕ) : ofNat n = .number (toBytes (wholeSpelling n).text) := by
  rw [text_wholeSpelling]
  exact congrArg (fun chars => Json.number (toBytes chars)) Nat.toList_repr

theorem isLegible_ofNat (n : ℕ) : IsLegible (ofNat n) := by
  rw [ofNat_eq]
  exact Spelling.isLiteral (isProper_wholeSpelling n)

theorem settle_ofNat {n : ℕ} (small : n ≤ Literal.most) : settle (ofNat n) = ofNat n := by
  rw [ofNat_eq]
  refine congrArg Json.number ?_
  have literal := Spelling.literal_text (isProper_wholeSpelling n)
  have whole : (Literal.ofBytes (toBytes (wholeSpelling n).text)).integer? = some (false, n) := by
    have value : digitsValue 0 (wholeSpelling n).whole = n := digitsValue_digitList n
    rw [literal, Literal.integer?]
    dsimp only
    rw [value]
    simp [wholeSpelling, small]
  unfold settleLiteral
  dsimp only
  rw [whole]

theorem foldl_toBytes {digits : List Char} (all : Spelling.AreDigits digits) (value : ℕ) :
    (toBytes digits).foldl (fun n b => 10 * n + (b.toNat - 0x30)) value = digitsValue value digits := by
  induction digits generalizing value with
  | nil => rfl
  | cons c rest ih =>
    have digit := digit_cases (all c List.mem_cons_self)
    have byte := toNat_byte (c := c) (by omega)
    have later := ih (fun d member => all d (List.mem_cons_of_mem _ member)) (10 * value + (c.toNat - 48))
    rw [toBytes, List.map_cons, List.foldl_cons, byte]
    exact later

theorem all_isDigit_toBytes {digits : List Char} (all : Spelling.AreDigits digits) :
    (toBytes digits).all isDigit = true := by
  rw [toBytes, List.all_map, List.all_eq_true]
  exact fun c member => isDigit_byte (all c member)

theorem toNat?_ofNat {n limit : ℕ} (bound : n ≤ limit) : toNat? limit (ofNat n) = some n := by
  have all := areDigits_digitList n
  rw [ofNat_eq, text_wholeSpelling, toNat?, if_pos (all_isDigit_toBytes all), foldl_toBytes all,
    digitsValue_digitList]
  exact if_pos bound

end Onboard.Json
