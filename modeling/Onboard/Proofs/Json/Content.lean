import Onboard.Json.Text
import Onboard.Proofs.Json.Parse

/-! Escaped text is a content and unescapes to itself. -/

namespace Onboard.Json

theorem IsContent.append {a b : Bytes} (first : IsContent a) (second : IsContent b) : IsContent (a ++ b) := by
  intro read
  rw [Lexer.pass?_append (first read), second, List.reverse_append, List.append_assoc]

theorem isHexDigit_hexLetter {n : Nat} (digit : n < 16) : isHexDigit (hexLetter n) = true := by
  have each : ∀ n : Fin 16, isHexDigit (hexLetter n) = true := by decide
  exact each ⟨n, digit⟩

/-- The ways in which a byte is written. -/
theorem escapeByte_cases (b : UInt8) :
    (∃ letter, escapeByte b = [0x5C, letter] ∧ isEscapeLetter letter = true ∧ letter ≠ 0x75 ∧
      unescapeLetter letter = b) ∨
    (b < 0x20 ∧ escapeByte b = [0x5C, 0x75, 0x30, 0x30, hexLetter (b.toNat / 16), hexLetter (b.toNat % 16)]) ∨
    (¬ b < 0x20 ∧ b ≠ 0x22 ∧ b ≠ 0x5C ∧ escapeByte b = [b]) := by
  unfold escapeByte
  split
  case isTrue same => exact .inl ⟨_, rfl, by decide, by decide, same.symm⟩
  split
  case isTrue same => exact .inl ⟨_, rfl, by decide, by decide, same.symm⟩
  split
  case isTrue same => exact .inl ⟨_, rfl, by decide, by decide, same.symm⟩
  split
  case isTrue same => exact .inl ⟨_, rfl, by decide, by decide, same.symm⟩
  split
  case isTrue same => exact .inl ⟨_, rfl, by decide, by decide, same.symm⟩
  split
  case isTrue same => exact .inl ⟨_, rfl, by decide, by decide, same.symm⟩
  split
  case isTrue same => exact .inl ⟨_, rfl, by decide, by decide, same.symm⟩
  split
  case isTrue low => exact .inr (.inl ⟨low, rfl⟩)
  case isFalse quote slash _ _ _ _ _ low => exact .inr (.inr ⟨low, quote, slash, rfl⟩)

theorem toNat_lt_of_control {b : UInt8} (control : b < 0x20) : b.toNat < 32 :=
  UInt8.lt_iff_toNat_lt.mp control

theorem step_hex {h : UInt8} (digit : isHexDigit h = true) (read : Bytes) (owed : Nat) :
    (Lexer.string read (.hex owed)).step h =
      some ([], .string (h :: read) (if owed ≤ 1 then .none else .hex (owed - 1))) :=
  if_pos digit

theorem isContent_escapeByte (b : UInt8) : IsContent (escapeByte b) := by
  intro read
  obtain ⟨letter, written, escape, -, -⟩ | ⟨control, written⟩ | ⟨high, quote, slash, written⟩ := escapeByte_cases b
  · simp [written, Lexer.pass?, Lexer.step, Lexer.stringStep, escape]
  · have value := toNat_lt_of_control control
    have opened : (Lexer.string read .none).pass? [0x5C, 0x75, 0x30, 0x30] =
        some (.string ([0x30, 0x30, 0x75, 0x5C] ++ read) (.hex 2)) := rfl
    have whole := Lexer.pass?_append opened [hexLetter (b.toNat / 16), hexLetter (b.toNat % 16)]
    rw [Lexer.pass?, step_hex (isHexDigit_hexLetter (by omega))] at whole
    simp only [Nat.reduceLeDiff, if_false, Lexer.pass?, step_hex (isHexDigit_hexLetter (n := b.toNat % 16) (by omega))]
      at whole
    rw [written]
    exact whole
  · simp [written, Lexer.pass?, Lexer.step, Lexer.stringStep, high, quote, slash]

theorem isContent_escape (text : Bytes) : IsContent (escape text) := by
  induction text with
  | nil => exact fun _ => rfl
  | cons b rest ih => exact (isContent_escapeByte b).append ih

theorem codePoint_control {b : UInt8} (control : b < 0x20) :
    codePoint (fourHex 0x30 0x30 (hexLetter (b.toNat / 16)) (hexLetter (b.toNat % 16))) = [b] := by
  have each : ∀ n : Fin 32, codePoint (fourHex 0x30 0x30 (hexLetter (n / 16)) (hexLetter (n % 16))) =
      [UInt8.ofNat n] := by decide
  have found := each ⟨b.toNat, toNat_lt_of_control control⟩
  rwa [UInt8.ofNat_toNat] at found

theorem fourHex_control {b : UInt8} (control : b < 0x20) :
    fourHex 0x30 0x30 (hexLetter (b.toNat / 16)) (hexLetter (b.toNat % 16)) < 0xD800 := by
  have each : ∀ n : Fin 32, fourHex 0x30 0x30 (hexLetter (n / 16)) (hexLetter (n % 16)) < 0xD800 := by decide
  exact each ⟨b.toNat, toNat_lt_of_control control⟩

/-- A code point that is no half of a pair stands alone. -/
theorem unescape?_point {a b c d : UInt8} (plain : fourHex a b c d < 0xD800) (rest : Bytes) :
    unescape? (0x5C :: 0x75 :: a :: b :: c :: d :: rest) =
      (unescape? rest).map (codePoint (fourHex a b c d) ++ ·) := by
  conv => lhs; unfold unescape?
  exact if_pos (.inl plain)

theorem unescape?_escapeByte (b : UInt8) (rest : Bytes) :
    unescape? (escapeByte b ++ rest) = (unescape? rest).map (b :: ·) := by
  obtain ⟨letter, written, -, plain, same⟩ | ⟨control, written⟩ | ⟨-, -, slash, written⟩ := escapeByte_cases b
  · rw [written, ← same]
    simp [unescape?, plain]
  · have low := fourHex_control control
    have read := codePoint_control control
    rw [written]
    exact (unescape?_point low rest).trans (by rw [read]; rfl)
  · rw [written]
    simp [unescape?, slash]

theorem unescape?_escape (text : Bytes) : unescape? (escape text) = some text := by
  induction text with
  | nil => rfl
  | cons b rest ih =>
    change unescape? (escapeByte b ++ escape rest) = _
    rw [unescape?_escapeByte, ih]
    rfl

theorem contentText?_escape (text : String) : contentText? (escape (Utf8.encode text)) = some text := by
  rw [contentText?, unescape?_escape]
  exact Utf8.decode?_encode text

end Onboard.Json
