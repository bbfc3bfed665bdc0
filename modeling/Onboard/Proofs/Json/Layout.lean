import Onboard.Proofs.Json.Spelling
import Onboard.Proofs.Number.Shortest

/-! The literals that numbers are written as. A decimal is spelled with or without an exponent, and either spelling
stands for it exactly. -/

namespace Onboard
open Json (Spelling)
open Json.Spelling (AreDigits)

theorem digitsValue_append (value : ℕ) (a b : List Char) :
    digitsValue value (a ++ b) = digitsValue (digitsValue value a) b :=
  List.foldl_append

theorem digitsValue_zeros (value k : ℕ) : digitsValue value (List.replicate k '0') = value * 10 ^ k :=
  Nat.ofDigitChars_replicate_zero.trans (Nat.mul_comm ..)

theorem digitsValue_zero (value : ℕ) : digitsValue value ['0'] = value * 10 :=
  Nat.mul_comm ..

theorem digitsValue_digitList (n : ℕ) : digitsValue 0 (Decimal.digitList n) = n :=
  Nat.ofDigitChars_ten_toDigits

theorem areDigits_digitList (n : ℕ) : AreDigits (Decimal.digitList n) := by
  intro c member
  have digit : c.isDigit = true := Nat.isDigit_of_mem_toDigits (by decide) (by decide) member
  exact digit

theorem digitList_ne_nil (n : ℕ) : Decimal.digitList n ≠ [] :=
  Nat.toDigits_ne_nil

theorem head?_digitList {n : ℕ} (positive : 0 < n) : (Decimal.digitList n).head? ≠ some '0' := by
  induction n using Nat.strongRecOn with
  | ind n ih =>
    unfold Decimal.digitList at *
    rcases Nat.lt_or_ge n 10 with small | large
    · rw [Nat.toDigits_of_lt_base small, List.head?_cons, ne_eq, Option.some_inj, Nat.digitChar_eq_zero]
      exact positive.ne'
    · rw [Nat.toDigits_of_base_le (by decide) large, List.head?_append_of_ne_nil _ Nat.toDigits_ne_nil]
      exact ih (n / 10) (by omega) (by omega)

theorem areDigits_zeros (k : ℕ) : AreDigits (List.replicate k '0') := by
  intro c member
  rw [List.eq_of_mem_replicate member]
  rfl

theorem areDigits_append {a b : List Char} (left : AreDigits a) (right : AreDigits b) : AreDigits (a ++ b) :=
  List.forall_mem_append.mpr ⟨left, right⟩

namespace Layout

/-- Decimals are written with a point or an exponent, and with a point not too many digits stand before it. -/
structure IsPointed (l : Layout) : Prop where
  wholePoint : l.wholePoint = true
  plus : l.plus = true
  positional : ∃ low high, l.positional = some (low, high) ∧ high ≤ 15

theorem isPointed_wire : wire.IsPointed :=
  ⟨rfl, rfl, -5, 15, rfl, by decide⟩

theorem isPointed_wireSingle : wireSingle.IsPointed :=
  ⟨rfl, rfl, -6, 12, rfl, by decide⟩

/-- A text that spells a number which is not whole by its form. -/
structure Spells (negative : Bool) (value : ℚ) (text : List Char) (s : Spelling) : Prop where
  text : s.text = text
  proper : s.IsProper
  negative : s.negative = negative
  value : (s.numeral.digits * 10 ^ s.numeral.exponent : ℚ) = value
  short : s.whole.length ≤ 16
  fractional : s.fraction ≠ [] ∨ s.exponent ≠ none

section Decimals
variable {l : Layout} {n : ℕ} {e first : ℤ} (negative : Bool)

/-- Digits around a point. -/
theorem spells_pointed {whole fraction : List Char} {value : ℚ} (wholeDigits : AreDigits whole) (some : whole ≠ [])
    (leading : whole.head? = Option.some '0' → whole = ['0']) (short : whole.length ≤ 16)
    (fractionDigits : AreDigits fraction) (fractional : fraction ≠ [])
    (worth : (digitsValue 0 (whole ++ fraction) * 10 ^ (-fraction.length : ℤ) : ℚ) = value) :
    ∃ s, Spells negative value (signed negative (whole ++ '.' :: fraction)) s := by
  refine ⟨⟨negative, whole, fraction, none⟩, ?_, ⟨wholeDigits, some, leading, fractionDigits, nofun⟩, rfl, ?_, short,
    .inl fractional⟩
  · cases negative <;>
      simp [Spelling.text, Spelling.tail, Spelling.signText, Spelling.fractionText, Spelling.exponentText, signed,
        fractional]
  · rw [← worth]
    simp [Spelling.numeral, Numeral.ofParts, Spelling.exponentValue]

theorem spells_zero (pointed : l.IsPointed) (f : BinaryFormat) :
    ∃ s, Spells negative 0 (signed negative (l.writeMagnitude f 0)) s := by
  rw [writeMagnitude, if_pos rfl, if_pos pointed.wholePoint]
  exact spells_pointed negative (areDigits_zeros 1) (List.cons_ne_nil _ _) (fun _ => rfl) (by decide)
    (areDigits_zeros 1) (List.cons_ne_nil _ _) (by simp [digitsValue])

/-- The sign and the digits of an exponent spell it. -/
theorem exponentValue_digitList (first : ℤ) :
    Spelling.exponentValue (some (decide (first < 0), Decimal.digitList first.natAbs)) = first := by
  simp only [Spelling.exponentValue, digitsValue_digitList, decide_eq_true_eq]
  split <;> omega

theorem spells_scientific (pointed : l.IsPointed) (positive : 0 < n)
    (place : first = e + (Decimal.digitList n).length - 1) : ∃ s, Spells negative (n * 10 ^ e)
      (signed negative (l.scientificDigits (Decimal.digitList n) first)) s := by
  have all := areDigits_digitList n
  have head := head?_digitList positive
  have value := digitsValue_digitList n
  match same : Decimal.digitList n with
  | [] => exact absurd same (digitList_ne_nil n)
  | d :: rest =>
    rw [same] at all head value place
    refine ⟨⟨negative, [d], rest, some (decide (first < 0), Decimal.digitList first.natAbs)⟩, ?_, ?_, rfl, ?_, ?_, ?_⟩
    · have exponent : (if first < 0 then ['-'] else if l.plus then ['+'] else []) =
          [if decide (first < 0) then '-' else '+'] := by
        rw [pointed.plus]
        by_cases below : first < 0 <;> simp [below]
      unfold scientificDigits
      rw [exponent]
      cases negative <;> cases rest <;>
        simp [Spelling.text, Spelling.tail, Spelling.signText, Spelling.fractionText, Spelling.exponentText, signed]
    · refine ⟨?_, List.cons_ne_nil _ _, fun zero => absurd zero head,
        fun c member => all c (List.mem_cons_of_mem _ member), ?_⟩
      · intro c member
        rw [List.mem_singleton.mp member]
        exact all d List.mem_cons_self
      · rintro _ _ ⟨⟩
        exact ⟨areDigits_digitList _, digitList_ne_nil _⟩
    · change ((digitsValue 0 (d :: rest) : ℕ) : ℚ) * 10 ^ (Spelling.exponentValue _ - rest.length) = _
      rw [value, exponentValue_digitList, place, List.length_cons]
      congr 2
      push_cast
      ring
    · simp
    · simp

section Positional
variable {digits : List Char}

/-- All digits stand behind the point. -/
theorem spells_behind (all : AreDigits digits) (some : digits ≠ []) (below : first < 0)
    (place : first = e + digits.length - 1) : ∃ s, Spells negative (digitsValue 0 digits * 10 ^ e)
      (signed negative (['0'] ++ '.' :: (List.replicate (-first - 1).toNat '0' ++ digits))) s := by
  refine spells_pointed negative (areDigits_zeros 1) (List.cons_ne_nil _ _) (fun _ => rfl) (by decide)
    (areDigits_append (areDigits_zeros _) all) (List.append_ne_nil_of_right_ne_nil _ some) ?_
  rw [digitsValue_append, digitsValue_append, digitsValue_zero, Nat.zero_mul, digitsValue_zeros, Nat.zero_mul,
    List.length_append, List.length_replicate]
  congr 2
  omega

/-- All digits stand before the point. -/
theorem spells_before (all : AreDigits digits) (some : digits ≠ []) (head : digits.head? ≠ Option.some '0')
    (place : first = e + digits.length - 1) (short : digits.length ≤ first.toNat + 1) (above : ¬ first < 0)
    (low : first ≤ 15) : ∃ s, Spells negative (digitsValue 0 digits * 10 ^ e)
      (signed negative (digits ++ List.replicate (first.toNat + 1 - digits.length) '0' ++ '.' :: ['0'])) s := by
  refine spells_pointed negative (areDigits_append all (areDigits_zeros _))
    (List.append_ne_nil_of_left_ne_nil some _) ?_ ?_ (areDigits_zeros 1) (List.cons_ne_nil _ _) ?_
  · rw [List.head?_append_of_ne_nil _ some]
    exact fun zero => absurd zero head
  · rw [List.length_append, List.length_replicate]
    omega
  · obtain ⟨k, rfl⟩ := Int.eq_ofNat_of_zero_le (show 0 ≤ e by omega)
    have zeros : first.toNat + 1 - digits.length = k := by omega
    rw [digitsValue_append, digitsValue_append, digitsValue_zeros, digitsValue_zero, zeros]
    simp

/-- The point stands between digits. -/
theorem spells_between (all : AreDigits digits) (some : digits ≠ []) (head : digits.head? ≠ Option.some '0')
    (place : first = e + digits.length - 1) (long : ¬ digits.length ≤ first.toNat + 1) (above : ¬ first < 0)
    (low : first ≤ 15) : ∃ s, Spells negative (digitsValue 0 digits * 10 ^ e)
      (signed negative (digits.take (first.toNat + 1) ++ '.' :: digits.drop (first.toNat + 1))) s := by
  have length := List.length_pos_of_ne_nil some
  refine spells_pointed negative (fun c member => all c (List.mem_of_mem_take member)) ?_ ?_ ?_
    (fun c member => all c (List.mem_of_mem_drop member)) ?_ ?_
  · refine List.ne_nil_of_length_pos ?_
    rw [List.length_take]
    omega
  · rw [List.head?_take, if_neg (Nat.succ_ne_zero _)]
    exact fun zero => absurd zero head
  · rw [List.length_take]
    omega
  · refine List.ne_nil_of_length_pos ?_
    rw [List.length_drop]
    omega
  · rw [List.take_append_drop, List.length_drop]
    congr 2
    omega

end Positional

theorem spells_positional (pointed : l.IsPointed) (positive : 0 < n)
    (place : first = e + (Decimal.digitList n).length - 1) (low : first ≤ 15) : ∃ s, Spells negative (n * 10 ^ e)
      (signed negative (l.positionalDigits (Decimal.digitList n) first)) s := by
  have all := areDigits_digitList n
  have some := digitList_ne_nil n
  have head := head?_digitList positive
  have value := digitsValue_digitList n
  generalize Decimal.digitList n = digits at *
  subst value
  unfold positionalDigits
  split
  · next below => exact spells_behind negative all some below place
  · next above =>
    extract_lets whole
    split
    · next short =>
      rw [if_pos pointed.wholePoint]
      exact spells_before negative all some head place short above low
    · next long => exact spells_between negative all some head place long above low

/-- What is written spells the number. -/
theorem spells_decimal (pointed : l.IsPointed) {d : Decimal} (positive : 0 < d.digits) :
    ∃ s, Spells negative d.value (signed negative (l.writeDecimal d)) s := by
  obtain ⟨low, high, positional, bound⟩ := pointed.positional
  unfold writeDecimal
  rw [positional]
  dsimp only
  split
  · next inside =>
    rw [Bool.and_eq_true, decide_eq_true_iff, decide_eq_true_iff] at inside
    exact spells_positional negative pointed positive rfl (inside.2.trans bound)
  · exact spells_scientific negative pointed positive rfl

/-- The decimal that is written for a magnitude. -/
def worth (l : Layout) (f : BinaryFormat) (magnitude : ℕ) : ℚ :=
  if magnitude = 0 then 0 else (Decimal.shortest f l.tie magnitude).value

theorem spells_magnitude (pointed : l.IsPointed) {f : BinaryFormat} {magnitude : ℕ}
    (some : 0 < magnitude → 0 < (Decimal.shortest f l.tie magnitude).digits) :
    ∃ s, Spells negative (l.worth f magnitude) (signed negative (l.writeMagnitude f magnitude)) s := by
  rcases Nat.eq_zero_or_pos magnitude with rfl | positive
  · exact spells_zero negative pointed f
  · rw [worth, writeMagnitude, if_neg positive.ne', if_neg positive.ne']
    exact spells_decimal negative pointed (some positive)

theorem nearTop_nonneg : 0 ≤ Decimal.nearTop :=
  mul_nonneg (by norm_num) (two_zpow_pos 970).le

theorem spells_double (pointed : l.IsPointed) {magnitude : ℕ} (finite : magnitude < BinaryFormat.double.infinity) :
    (∃ s, Spells negative (l.worth .double magnitude) (signed negative (l.writeMagnitude .double magnitude)) s) ∧
      l.worth .double magnitude < BinaryFormat.overflow ∧
      (magnitude + 1 < BinaryFormat.double.infinity → l.worth .double magnitude ≤ Decimal.nearTop) := by
  refine ⟨spells_magnitude negative pointed fun positive => (Decimal.shortest_double l.tie positive finite).1, ?_⟩
  unfold worth
  split
  · exact ⟨nearTop_nonneg.trans_lt Decimal.nearTop_lt, fun _ => nearTop_nonneg⟩
  · next some => exact (Decimal.shortest_double l.tie (Nat.pos_of_ne_zero some) finite).2

theorem spells_single (pointed : l.IsPointed) {magnitude : ℕ} (finite : magnitude < BinaryFormat.single.infinity) :
    (∃ s, Spells negative (l.worth .single magnitude) (signed negative (l.writeMagnitude .single magnitude)) s) ∧
      l.worth .single magnitude ≤ Decimal.nearTop := by
  refine ⟨spells_magnitude negative pointed fun positive => (Decimal.shortest_single l.tie positive finite).1, ?_⟩
  unfold worth
  split
  · exact nearTop_nonneg
  · next some => exact (Decimal.shortest_single l.tie (Nat.pos_of_ne_zero some) finite).2

end Decimals
end Layout
end Onboard
