import Mathlib.Data.List.Basic
import Onboard.Json.Decode
import Onboard.Proofs.Json.Parse

/-! How numbers are spelled. A spelling is a literal for the lexer, and both ways of reading a literal find the parts
that it was spelled with. -/

namespace Onboard.Json

def toBytes (chars : List Char) : Bytes :=
  chars.map fun c => UInt8.ofNat c.toNat

def ofBytes (bytes : Bytes) : List Char :=
  bytes.map fun b => Char.ofNat b.toNat

/-- The parts of a literal; an exponent has a sign in any case, and may be negative. -/
structure Spelling where
  negative : Bool
  whole : List Char
  fraction : List Char
  exponent : Option (Bool × List Char)

namespace Spelling

def signText (negative : Bool) : List Char :=
  if negative then ['-'] else []

def fractionText (fraction : List Char) : List Char :=
  if fraction = [] then [] else '.' :: fraction

def exponentText : Option (Bool × List Char) → List Char
  | none => []
  | some (negative, digits) => 'e' :: (if negative then '-' else '+') :: digits

def tail (s : Spelling) : List Char :=
  fractionText s.fraction ++ exponentText s.exponent

def text (s : Spelling) : List Char :=
  signText s.negative ++ (s.whole ++ s.tail)

def AreDigits (chars : List Char) : Prop :=
  ∀ c ∈ chars, Onboard.isDigit c = true

/-- All parts are digits, and whole numbers do not begin with a zero that says nothing. -/
structure IsProper (s : Spelling) : Prop where
  whole : AreDigits s.whole
  some : s.whole ≠ []
  leading : s.whole.head? = Option.some '0' → s.whole = ['0']
  fraction : AreDigits s.fraction
  exponent : ∀ negative digits, s.exponent = Option.some (negative, digits) → AreDigits digits ∧ digits ≠ []

end Spelling

theorem digit_cases {c : Char} (digit : Onboard.isDigit c = true) : 48 ≤ c.toNat ∧ c.toNat ≤ 57 := by
  rw [Onboard.isDigit, Bool.and_eq_true, decide_eq_true_iff, decide_eq_true_iff] at digit
  exact digit

theorem toNat_byte {c : Char} (small : c.toNat < 128) : (UInt8.ofNat c.toNat).toNat = c.toNat := by
  rw [UInt8.toNat_ofNat', Nat.mod_eq_of_lt (by omega)]

theorem ofNat_byte {c : Char} (small : c.toNat < 128) : Char.ofNat (UInt8.ofNat c.toNat).toNat = c := by
  rw [toNat_byte small, Char.ofNat_toNat]

theorem isDigit_byte {c : Char} (digit : Onboard.isDigit c = true) : isDigit (UInt8.ofNat c.toNat) = true := by
  obtain ⟨low, high⟩ := digit_cases digit
  have value := toNat_byte (c := c) (by omega)
  rw [isDigit, Bool.and_eq_true, decide_eq_true_iff, decide_eq_true_iff, UInt8.le_iff_toNat_le, UInt8.le_iff_toNat_le,
    value]
  exact ⟨low, high⟩

theorem ofBytes_toBytes {chars : List Char} (small : ∀ c ∈ chars, c.toNat < 128) : ofBytes (toBytes chars) = chars := by
  rw [ofBytes, toBytes, List.map_map]
  exact (List.map_congr_left fun c member => ofNat_byte (small c member)).trans (List.map_id _)

theorem toBytes_append (a b : List Char) : toBytes (a ++ b) = toBytes a ++ toBytes b :=
  List.map_append

open Spelling (AreDigits)

theorem pass?_digits {part : NumberPart} (stays : ∀ b, isDigit b = true → part.next? b = some part)
    {digits : List Char} (all : AreDigits digits) (read : Bytes) :
    (Lexer.number read part).pass? (toBytes digits) = some (.number ((toBytes digits).reverse ++ read) part) := by
  induction digits generalizing read with
  | nil => rfl
  | cons c rest ih =>
    have digit := isDigit_byte (all c List.mem_cons_self)
    have later := ih (fun d member => all d (List.mem_cons_of_mem _ member)) (UInt8.ofNat c.toNat :: read)
    simp only [toBytes, List.map_cons, Lexer.pass?, Lexer.step, stays _ digit] at later ⊢
    rw [later, List.reverse_cons, List.append_assoc]
    rfl

theorem pass?_enter {part next : NumberPart} (enters : ∀ b, isDigit b = true → part.next? b = some next)
    (stays : ∀ b, isDigit b = true → next.next? b = some next) {digits : List Char} (all : AreDigits digits)
    (some_ : digits ≠ []) (read : Bytes) :
    (Lexer.number read part).pass? (toBytes digits) = some (.number ((toBytes digits).reverse ++ read) next) := by
  match digits with
  | c :: rest =>
    have digit := isDigit_byte (all c List.mem_cons_self)
    have later := pass?_digits stays (fun d member => all d (List.mem_cons_of_mem _ member))
      (UInt8.ofNat c.toNat :: read)
    simp only [toBytes, List.map_cons, Lexer.pass?, Lexer.step, enters _ digit] at later ⊢
    rw [later, List.reverse_cons, List.append_assoc]
    rfl

namespace NumberPart

theorem next?_whole (b : UInt8) (digit : isDigit b = true) : next? .whole b = some .whole := by
  simp [next?, digit]

theorem next?_point (b : UInt8) (digit : isDigit b = true) : next? .point b = some .fraction := by
  simp [next?, digit]

theorem next?_fraction (b : UInt8) (digit : isDigit b = true) : next? .fraction b = some .fraction := by
  simp [next?, digit]

theorem next?_markSign (b : UInt8) (digit : isDigit b = true) : next? .markSign b = some .exponent := by
  simp [next?, digit]

theorem next?_exponent (b : UInt8) (digit : isDigit b = true) : next? .exponent b = some .exponent := by
  simp [next?, digit]

end NumberPart

theorem start_digit {c : Char} (digit : Onboard.isDigit c = true) (nonzero : c ≠ '0') :
    Lexer.start (UInt8.ofNat c.toNat) = some ([], .number [UInt8.ofNat c.toNat] .whole) := by
  obtain ⟨low, high⟩ := digit_cases digit
  have above : c.toNat ≠ 48 := fun same => nonzero (Char.toNat_inj.mp same)
  have each : ∀ n : Fin 9, Lexer.start (UInt8.ofNat (49 + n)) = some ([], .number [UInt8.ofNat (49 + n)] .whole) := by
    decide
  have found := each ⟨c.toNat - 49, by omega⟩
  rwa [show 49 + (c.toNat - 49) = c.toNat by omega] at found

theorem next?_minus {c : Char} (digit : Onboard.isDigit c = true) (nonzero : c ≠ '0') :
    NumberPart.next? .minus (UInt8.ofNat c.toNat) = some .whole := by
  have above : UInt8.ofNat c.toNat ≠ 0x30 := by
    intro same
    have value := congrArg UInt8.toNat same
    rw [toNat_byte (by have := digit_cases digit; omega)] at value
    exact nonzero (Char.toNat_inj.mp value)
  simp [NumberPart.next?, above, isDigit_byte digit]

namespace Spelling

/-- After the whole part a point or an exponent may follow. -/
def AfterWhole (part : NumberPart) : Prop :=
  part = .zero ∨ part = .whole

theorem pass?_whole {s : Spelling} (proper : s.IsProper) :
    ∃ part, AfterWhole part ∧ Lexer.between.pass? (toBytes (signText s.negative ++ s.whole)) =
      some (.number (toBytes (signText s.negative ++ s.whole)).reverse part) := by
  obtain ⟨negative, whole, fraction, exponent⟩ := s
  obtain ⟨all, some_, leading, -, -⟩ := proper
  match whole with
  | c :: rest =>
    have digit := all c List.mem_cons_self
    have others : AreDigits rest := fun d member => all d (List.mem_cons_of_mem _ member)
    by_cases zero : c = '0'
    · have alone : rest = [] := (List.cons.inj (leading (congrArg some zero))).2
      subst zero alone
      refine ⟨.zero, .inl rfl, ?_⟩
      cases negative <;> rfl
    · refine ⟨.whole, .inr rfl, ?_⟩
      have later (read : Bytes) := pass?_digits NumberPart.next?_whole others read
      cases negative with
      | false =>
        simp only [signText, toBytes, List.nil_append, List.map_cons, Lexer.pass?, Lexer.step, start_digit digit zero,
          Bool.false_eq_true, if_false] at later ⊢
        rw [later, List.reverse_cons]
      | true =>
        have signed : Lexer.between.step (UInt8.ofNat '-'.toNat) = some ([], .number [0x2D] .minus) := rfl
        simp only [signText, toBytes, if_true, List.singleton_append, List.map_cons, Lexer.pass?, signed] at later ⊢
        simp only [Lexer.step, next?_minus digit zero, later, List.reverse_cons, List.append_assoc]
        rfl

theorem pass?_fraction {part : NumberPart} (after : AfterWhole part) {fraction : List Char}
    (all : AreDigits fraction) (read : Bytes) :
    ∃ next, (AfterWhole next ∨ next = .fraction) ∧ (Lexer.number read part).pass? (toBytes (fractionText fraction)) =
      some (.number ((toBytes (fractionText fraction)).reverse ++ read) next) := by
  by_cases none : fraction = []
  · subst none
    exact ⟨part, .inl after, rfl⟩
  · refine ⟨.fraction, .inr rfl, ?_⟩
    have point : part.next? (UInt8.ofNat '.'.toNat) = some .point := by
      obtain rfl | rfl := after <;> rfl
    have later := pass?_enter NumberPart.next?_point NumberPart.next?_fraction all none (UInt8.ofNat '.'.toNat :: read)
    rw [fractionText, if_neg none]
    simp only [toBytes, List.map_cons, Lexer.pass?, Lexer.step, point] at later ⊢
    rw [later, List.reverse_cons, List.append_assoc]
    rfl

theorem pass?_exponent {part : NumberPart} (after : AfterWhole part ∨ part = .fraction)
    {exponent : Option (Bool × List Char)}
    (all : ∀ negative digits, exponent = some (negative, digits) → AreDigits digits ∧ digits ≠ []) (read : Bytes) :
    ∃ last : NumberPart, last.isComplete ∧ (Lexer.number read part).pass? (toBytes (exponentText exponent)) =
      some (.number ((toBytes (exponentText exponent)).reverse ++ read) last) := by
  match exponent with
  | none =>
    refine ⟨part, ?_, rfl⟩
    obtain (rfl | rfl) | rfl := after <;> rfl
  | some (negative, digits) =>
    obtain ⟨digitsOnly, some_⟩ := all negative digits rfl
    refine ⟨.exponent, rfl, ?_⟩
    have mark : part.next? (UInt8.ofNat 'e'.toNat) = some .mark := by
      obtain (rfl | rfl) | rfl := after <;> rfl
    have sign : NumberPart.next? .mark (UInt8.ofNat (if negative then '-' else '+').toNat) = some .markSign := by
      cases negative <;> rfl
    have later (read : Bytes) := pass?_enter NumberPart.next?_markSign NumberPart.next?_exponent digitsOnly some_ read
    simp only [exponentText, toBytes, List.map_cons, Lexer.pass?, Lexer.step, mark, sign] at later ⊢
    rw [later, List.reverse_cons, List.reverse_cons, List.append_assoc, List.append_assoc]
    rfl

theorem isLiteral {s : Spelling} (proper : s.IsProper) : IsLiteral (toBytes s.text) := by
  obtain ⟨first, afterWhole, whole⟩ := pass?_whole proper
  obtain ⟨second, afterFraction, fraction⟩ :=
    pass?_fraction afterWhole proper.fraction (toBytes (signText s.negative ++ s.whole)).reverse
  obtain ⟨last, complete, exponent⟩ := pass?_exponent afterFraction proper.exponent
    ((toBytes (fractionText s.fraction)).reverse ++ (toBytes (signText s.negative ++ s.whole)).reverse)
  refine ⟨last, complete, ?_⟩
  rw [text, tail, ← List.append_assoc, toBytes_append (signText _ ++ _), toBytes_append (fractionText _),
    Lexer.pass?_append whole, Lexer.pass?_append fraction, exponent, List.reverse_append, List.reverse_append,
    List.append_assoc]

theorem toNat_digit {chars : List Char} (all : AreDigits chars) : ∀ c ∈ chars, c.toNat < 128 := fun c member => by
  have := digit_cases (all c member)
  omega

theorem toNat_text {s : Spelling} (proper : s.IsProper) : ∀ c ∈ s.text, c.toNat < 128 := by
  have signs : ∀ c ∈ signText s.negative, c.toNat < 128 := by
    cases s.negative with
    | false => exact nofun
    | true => exact List.forall_mem_singleton.mpr (by decide)
  have fractions : ∀ c ∈ fractionText s.fraction, c.toNat < 128 := by
    rw [fractionText]
    split
    · exact nofun
    · exact List.forall_mem_cons.mpr ⟨by decide, toNat_digit proper.fraction⟩
  have exponents : ∀ c ∈ exponentText s.exponent, c.toNat < 128 := by
    cases written : s.exponent with
    | none => exact nofun
    | some parts =>
      have digits := (proper.exponent parts.1 parts.2 written).1
      refine List.forall_mem_cons.mpr ⟨by decide, List.forall_mem_cons.mpr ⟨?_, toNat_digit digits⟩⟩
      cases parts.1 <;> decide
  simp only [text, tail, List.forall_mem_append]
  exact ⟨signs, toNat_digit proper.whole, fractions, exponents⟩

theorem ofBytes_text {s : Spelling} (proper : s.IsProper) : ofBytes (toBytes s.text) = s.text :=
  ofBytes_toBytes (toNat_text proper)

/-- What follows digits and is none. -/
def Stops (rest : List Char) : Prop :=
  ∀ c, rest.head? = some c → Onboard.isDigit c = false

theorem takeWhile_digits {digits rest : List Char} (all : AreDigits digits) (stops : Stops rest) :
    (digits ++ rest).takeWhile Onboard.isDigit = digits ∧ (digits ++ rest).dropWhile Onboard.isDigit = rest := by
  induction digits with
  | nil =>
    match rest with
    | [] => exact ⟨rfl, rfl⟩
    | c :: more =>
      have stop := stops c rfl
      exact ⟨List.takeWhile_cons_of_neg (by simp [stop]), List.dropWhile_cons_of_neg (by simp [stop])⟩
  | cons c more ih =>
    have digit := all c List.mem_cons_self
    obtain ⟨taken, dropped⟩ := ih fun d member => all d (List.mem_cons_of_mem _ member)
    rw [List.cons_append, List.takeWhile_cons_of_pos digit, List.dropWhile_cons_of_pos digit, taken, dropped]
    exact ⟨rfl, rfl⟩

theorem stops_exponent (exponent : Option (Bool × List Char)) : Stops (exponentText exponent) := by
  cases exponent with
  | none => exact nofun
  | some parts =>
    rintro c same
    cases same
    rfl

theorem stops_tail (s : Spelling) : Stops s.tail := by
  rw [tail, fractionText]
  split
  · exact stops_exponent s.exponent
  · rintro c same
    cases same
    rfl

/-- What an exponent is worth. -/
def exponentValue : Option (Bool × List Char) → Int
  | none => 0
  | some (negative, digits) => if negative then -(digitsValue 0 digits : Int) else digitsValue 0 digits

theorem exponent?_digits (negative : Bool) {digits : List Char} (all : AreDigits digits) (some_ : digits ≠ []) :
    Numeral.exponent? ((if negative then '-' else '+') :: digits) = some (exponentValue (some (negative, digits))) := by
  have digitsOnly : digits.all Onboard.isDigit = true := List.all_eq_true.mpr all
  cases negative <;> simp [Numeral.exponent?, exponentValue, some_, digitsOnly]

/-- The numeral that a spelling stands for. -/
def numeral (s : Spelling) : Numeral :=
  Numeral.ofParts s.negative s.whole s.fraction (exponentValue s.exponent)

theorem exponent_text {s : Spelling} (proper : s.IsProper) (negative : Bool) :
    (match exponentText s.exponent with
      | [] => some (Numeral.ofParts negative s.whole s.fraction 0)
      | c :: more =>
        if c = 'e' || c = 'E' then (Numeral.exponent? more).map (Numeral.ofParts negative s.whole s.fraction)
        else none) = some (Numeral.ofParts negative s.whole s.fraction (exponentValue s.exponent)) := by
  cases written : s.exponent with
  | none => rfl
  | some parts =>
    obtain ⟨digits, some_⟩ := proper.exponent parts.1 parts.2 written
    have value := exponent?_digits parts.1 digits some_
    simp only [exponentText, value]
    rfl

theorem unsigned?_text {s : Spelling} (proper : s.IsProper) (negative : Bool) :
    Numeral.unsigned? negative (s.whole ++ s.tail) =
      some (Numeral.ofParts negative s.whole s.fraction (exponentValue s.exponent)) := by
  obtain ⟨taken, dropped⟩ := takeWhile_digits proper.whole s.stops_tail
  have present : ¬ (s.whole = [] ∧ s.fraction = []) := fun none => proper.some none.1
  have read := exponent_text proper negative
  rw [Numeral.unsigned?, taken, dropped]
  by_cases none : s.fraction = []
  · rw [none] at present read ⊢
    have bare : s.tail = exponentText s.exponent := by rw [tail, fractionText, if_pos none, List.nil_append]
    rw [bare]
    cases written : s.exponent with
    | none =>
      rw [written] at read
      simpa [exponentText, proper.some] using read
    | some parts =>
      rw [written] at read
      simpa [exponentText, proper.some] using read
  · have pointed : s.tail = '.' :: (s.fraction ++ exponentText s.exponent) := by
      rw [tail, fractionText, if_neg none, List.cons_append]
    obtain ⟨fraction, rest⟩ := takeWhile_digits proper.fraction (stops_exponent s.exponent)
    rw [pointed]
    simp only [fraction, rest, if_neg present]
    exact read

theorem whole_head {s : Spelling} (proper : s.IsProper) (rest : List Char) : s.whole ++ s.tail ≠ '-' :: rest := by
  intro same
  match written : s.whole with
  | [] => exact proper.some written
  | c :: more =>
    rw [written] at same
    have digit := proper.whole c (written ▸ List.mem_cons_self)
    rw [(List.cons.inj same).1] at digit
    cases digit

theorem numeral?_eq (bytes : Bytes) :
    numeral? bytes = match ofBytes bytes with
      | '-' :: rest => Numeral.unsigned? true rest
      | rest => Numeral.unsigned? false rest :=
  rfl

theorem numeral?_text {s : Spelling} (proper : s.IsProper) : numeral? (toBytes s.text) = some s.numeral := by
  rw [numeral?_eq, ofBytes_text proper, numeral]
  cases sign : s.negative with
  | true =>
    rw [text, sign]
    exact unsigned?_text proper true
  | false =>
    have plain : s.text = s.whole ++ s.tail := by rw [text, sign]; rfl
    rw [plain, ← unsigned?_text proper false]
    split
    · next rest same => exact absurd same (whole_head proper rest)
    · rfl

/-- Before the exponent no letter marks one. -/
theorem dropWhile_mark {digits : List Char} (all : AreDigits digits) (exponent : Option (Bool × List Char)) :
    (fractionText digits ++ exponentText exponent).dropWhile (fun c => c ≠ 'e' ∧ c ≠ 'E') = exponentText exponent := by
  have plain : ∀ c ∈ fractionText digits, decide (c ≠ 'e' ∧ c ≠ 'E') = true := by
    rw [fractionText]
    split
    · exact nofun
    · refine List.forall_mem_cons.mpr ⟨rfl, fun c member => decide_eq_true ⟨?_, ?_⟩⟩
      all_goals
        rintro rfl
        exact absurd (all _ member) (by decide)
  rw [List.dropWhile_append_of_pos plain]
  cases exponent <;> rfl

theorem signed_text {s : Spelling} (proper : s.IsProper) :
    (match s.text with
      | '-' :: rest => (true, rest)
      | rest => (false, rest)) = (s.negative, s.whole ++ s.tail) := by
  cases sign : s.negative with
  | true => rw [text, sign]; rfl
  | false =>
    have plain : s.text = s.whole ++ s.tail := by rw [text, sign]; rfl
    rw [plain]
    split
    · next rest same => exact absurd same (whole_head proper rest)
    · rfl

/-- A literal is taken apart into what it was spelled with. -/
theorem fraction_tail {s : Spelling} (proper : s.IsProper) :
    (match s.tail with
      | '.' :: more => more.takeWhile Onboard.isDigit
      | _ => []) = s.fraction := by
  by_cases none : s.fraction = []
  · rw [tail, fractionText, if_pos none, none]
    cases s.exponent <;> rfl
  · rw [tail, fractionText, if_neg none]
    exact (takeWhile_digits proper.fraction (stops_exponent s.exponent)).1

/-- A literal once its sign is split off. -/
theorem parts_text {s : Spelling} (proper : s.IsProper) (pair : Bool × List Char)
    (same : pair = (s.negative, s.whole ++ s.tail)) :
    (⟨pair.1, pair.2.takeWhile Onboard.isDigit,
      (match pair.2.dropWhile Onboard.isDigit with
        | '.' :: more => more.takeWhile Onboard.isDigit
        | _ => []),
      Numeral.exponent? (((pair.2.dropWhile Onboard.isDigit).dropWhile fun c => c ≠ 'e' ∧ c ≠ 'E').drop 1)⟩ :
      Literal) = ⟨s.negative, s.whole, s.fraction, s.exponent.map fun parts => exponentValue (some parts)⟩ := by
  obtain ⟨taken, dropped⟩ := takeWhile_digits proper.whole s.stops_tail
  have exponent : Numeral.exponent? ((s.tail.dropWhile fun c => c ≠ 'e' ∧ c ≠ 'E').drop 1) =
      s.exponent.map fun parts => exponentValue (some parts) := by
    rw [tail, dropWhile_mark proper.fraction]
    cases written : s.exponent with
    | none => rfl
    | some parts =>
      obtain ⟨digits, some_⟩ := proper.exponent parts.1 parts.2 written
      exact exponent?_digits parts.1 digits some_
  subst same
  simp only [taken, dropped, fraction_tail proper, exponent]

theorem literal_text {s : Spelling} (proper : s.IsProper) :
    Literal.ofBytes (toBytes s.text) =
      ⟨s.negative, s.whole, s.fraction, s.exponent.map fun parts => exponentValue (some parts)⟩ := by
  have signed := signed_text proper
  rw [← ofBytes_text proper] at signed
  exact parts_text proper _ signed

end Spelling

end Onboard.Json
