import Onboard.Json.Reader

/-! Printed values read back. The lexer goes through a content or a literal without a token, and what follows a value
closes it, so that the reader stands after each value as if it had read that value alone. -/

namespace Onboard.Json

/-- The lexer after bytes that complete no token. -/
def Lexer.pass? (lexer : Lexer) : Bytes → Option Lexer
  | [] => some lexer
  | b :: rest =>
    match lexer.step b with
    | some ([], next) => next.pass? rest
    | _ => none

theorem Lexer.pass?_append {lexer next : Lexer} {a : Bytes} (first : lexer.pass? a = some next) (b : Bytes) :
    lexer.pass? (a ++ b) = next.pass? b := by
  induction a generalizing lexer with
  | nil => cases first; rfl
  | cons c rest ih =>
    simp only [List.cons_append, pass?] at first ⊢
    split at first
    · exact ih first
    · cases first

theorem Parser.run_pass {lexer next : Lexer} {a : Bytes} (passed : lexer.pass? a = some next) (reader : Reader)
    (rest : Bytes) : Parser.run ⟨lexer, reader⟩ (a ++ rest) = Parser.run ⟨next, reader⟩ rest := by
  induction a generalizing lexer with
  | nil => cases passed; rfl
  | cons c more ih =>
    simp only [Lexer.pass?] at passed
    split at passed
    case h_1 after stepped =>
      have step : Parser.step ⟨lexer, reader⟩ c = some ⟨after, reader⟩ := by
        simp [Parser.step, stepped, Reader.run]
      rw [List.cons_append, Parser.run, step]
      exact ih passed
    case h_2 => cases passed

/-- What may stand between quotes. -/
def IsContent (content : Bytes) : Prop :=
  ∀ read, (Lexer.string read .none).pass? content = some (.string (content.reverse ++ read) .none)

/-- A literal from its first byte to its last. -/
def IsLiteral (literal : Bytes) : Prop :=
  ∃ part : NumberPart, part.isComplete ∧ Lexer.between.pass? literal = some (.number literal.reverse part)

mutual

/-- All contents and literals are such. -/
def IsLegible : Json → Prop
  | .null | .bool _ => True
  | .number literal => IsLiteral literal
  | .string content => IsContent content
  | .array items => AreLegible items
  | .object members => MembersLegible members

def AreLegible : List Json → Prop
  | [] => True
  | item :: rest => IsLegible item ∧ AreLegible rest

def MembersLegible : List (Bytes × Json) → Prop
  | [] => True
  | (key, value) :: rest => IsContent key ∧ IsLegible value ∧ MembersLegible rest

end

/-- The parser has read a value in this place; a number may still be open. -/
def Parser.HasRead (p : Parser) (stack : List Frame) (value : Json) : Prop :=
  p = ⟨.between, ⟨stack, .next value⟩⟩ ∨
    ∃ read part orClose, NumberPart.isComplete part ∧ value = .number read.reverse ∧
      p = ⟨.number read part, ⟨stack, .value orClose⟩⟩

/-- What may follow a value: a comma or the end of a container. -/
inductive Closes : UInt8 → Prop where
  | comma : Closes 0x2C
  | array : Closes 0x5D
  | object : Closes 0x7D

theorem NumberPart.next?_closes (part : NumberPart) (closes : Closes b) : part.next? b = none := by
  cases closes <;> cases part <;> rfl

theorem Lexer.start_closes (closes : Closes b) : ∃ token, Lexer.start b = some ([token], .between) := by
  cases closes <;> exact ⟨_, rfl⟩

namespace Parser.HasRead

variable {p : Parser} {stack : List Frame} {value : Json}

theorem run_closes (has : p.HasRead stack value) (closes : Closes b) (rest : Bytes) :
    p.run (b :: rest) = Parser.run ⟨.between, ⟨stack, .next value⟩⟩ (b :: rest) := by
  obtain rfl | ⟨read, part, orClose, complete, rfl, rfl⟩ := has
  · rfl
  · obtain ⟨token, started⟩ := Lexer.start_closes closes
    simp [Parser.run, Parser.step, Lexer.step, part.next?_closes closes, complete, started, Reader.run,
      Reader.step, Reader.scalar?]

theorem result? (has : p.HasRead [] value) : p.result? = some value := by
  obtain rfl | ⟨read, part, orClose, complete, rfl, rfl⟩ := has
  · rfl
  · simp [Parser.result?, Lexer.finish, complete, Reader.run, Reader.step, Reader.scalar?, Reader.result?]

end Parser.HasRead

/-- Where a value is to come. -/
def Parser.before (stack : List Frame) (orClose : Bool) : Parser :=
  ⟨.between, ⟨stack, .value orClose⟩⟩

/-- A string's quotes and content give its token. -/
theorem Parser.run_string {content : Bytes} (legible : IsContent content) {reader next : Reader}
    (taken : reader.step (.string content) = some next) (rest : Bytes) :
    Parser.run ⟨.between, reader⟩ (0x22 :: (content ++ 0x22 :: rest)) = Parser.run ⟨.between, next⟩ rest := by
  have opened : Lexer.between.pass? [0x22] = some (.string [] .none) := rfl
  have closed : Parser.step ⟨.string content.reverse .none, reader⟩ 0x22 = some ⟨.between, next⟩ := by
    simp [Parser.step, Lexer.step, Lexer.stringStep, Reader.run, taken]
  have passed : Lexer.between.pass? (0x22 :: content) = some (.string content.reverse .none) := by
    have whole := Lexer.pass?_append opened content
    rwa [legible [], List.append_nil] at whole
  rw [← List.cons_append, Parser.run_pass passed, Parser.run, closed]

section Values
variable (stack : List Frame) (orClose : Bool)

theorem run_literal {literal : Bytes} (legible : IsLiteral literal) :
    ∃ p, (Parser.before stack orClose).run literal = some p ∧ p.HasRead stack (.number literal) := by
  obtain ⟨part, complete, passed⟩ := legible
  have whole := Parser.run_pass passed ⟨stack, .value orClose⟩ []
  rw [List.append_nil] at whole
  refine ⟨_, whole, .inr ⟨literal.reverse, part, orClose, complete, ?_, rfl⟩⟩
  rw [List.reverse_reverse]

theorem run_text {content : Bytes} (legible : IsContent content) :
    (Parser.before stack orClose).run (0x22 :: content ++ [0x22]) =
      some ⟨.between, ⟨stack, .next (.string content)⟩⟩ :=
  Parser.run_string legible rfl []

end Values

/-- A key and its colon stand before a value. -/
theorem run_key (stack : List Frame) (before : List (Bytes × Json)) (orClose : Bool) {key : Bytes}
    (legible : IsContent key) (rest : Bytes) :
    Parser.run ⟨.between, ⟨stack, .key before orClose⟩⟩ (0x22 :: (key ++ 0x22 :: 0x3A :: rest)) =
      (Parser.before (.members before key :: stack) false).run rest := by
  rw [Parser.run_string legible rfl (0x3A :: rest)]
  rfl

mutual

/-- A printed value is read as itself, wherever one is to come. -/
theorem run_print (stack : List Frame) (orClose : Bool) : (j : Json) → IsLegible j →
    ∃ p, (Parser.before stack orClose).run j.print = some p ∧ p.HasRead stack j
  | .null, _ => ⟨_, rfl, .inl rfl⟩
  | .bool true, _ => ⟨_, rfl, .inl rfl⟩
  | .bool false, _ => ⟨_, rfl, .inl rfl⟩
  | .number _, legible => run_literal stack orClose legible
  | .string _, legible => ⟨_, run_text stack orClose legible, .inl rfl⟩
  | .array [], _ => ⟨_, rfl, .inl rfl⟩
  | .array (item :: rest), legible => by
    refine ⟨_, ?_, .inl rfl⟩
    exact run_printItems stack [] true (item :: rest) nofun legible
  | .object [], _ => ⟨_, rfl, .inl rfl⟩
  | .object (member :: rest), legible => by
    refine ⟨_, ?_, .inl rfl⟩
    exact run_printMembers stack [] true (member :: rest) nofun legible

theorem run_printItems (stack : List Frame) (before : List Json) (orClose : Bool) : (items : List Json) → items ≠ [] →
    AreLegible items → (Parser.before (.items before :: stack) orClose).run (Json.printItems items ++ [0x5D]) =
      some ⟨.between, ⟨stack, .next (.array (before.reverse ++ items))⟩⟩
  | [item], _, ⟨legible, _⟩ => by
    obtain ⟨p, run, has⟩ := run_print (.items before :: stack) orClose item legible
    rw [Json.printItems, Parser.run_append, run, Option.bind_some, has.run_closes .array]
    simp [Parser.run, Parser.step, Lexer.step, Lexer.start, isBlank, Reader.run, Reader.step, Reader.stepNext]
  | item :: next :: rest, _, ⟨legible, others⟩ => by
    obtain ⟨p, run, has⟩ := run_print (.items before :: stack) orClose item legible
    have more := run_printItems stack (item :: before) false (next :: rest) nofun others
    rw [List.reverse_cons, List.append_assoc] at more
    rw [Json.printItems, List.append_assoc, Parser.run_append, run, Option.bind_some, List.cons_append,
      has.run_closes .comma]
    · exact more
    · exact nofun

theorem run_printMembers (stack : List Frame) (before : List (Bytes × Json)) (orClose : Bool) :
    (members : List (Bytes × Json)) → members ≠ [] → MembersLegible members →
      Parser.run ⟨.between, ⟨stack, .key before orClose⟩⟩ (Json.printMembers members ++ [0x7D]) =
        some ⟨.between, ⟨stack, .next (.object (before.reverse ++ members))⟩⟩
  | [(key, value)], _, ⟨legibleKey, legible, _⟩ => by
    obtain ⟨p, run, has⟩ := run_print (.members before key :: stack) false value legible
    simp only [Json.printMembers, Json.printMember, List.append_assoc, List.cons_append]
    rw [run_key stack before orClose legibleKey, Parser.run_append, run, Option.bind_some, has.run_closes .object]
    simp [Parser.run, Parser.step, Lexer.step, Lexer.start, isBlank, Reader.run, Reader.step, Reader.stepNext]
  | (key, value) :: next :: rest, _, ⟨legibleKey, legible, others⟩ => by
    obtain ⟨p, run, has⟩ := run_print (.members before key :: stack) false value legible
    have more := run_printMembers stack ((key, value) :: before) false (next :: rest) nofun others
    rw [List.reverse_cons, List.append_assoc] at more
    simp only [Json.printMembers, Json.printMember, List.append_assoc, List.cons_append]
    rw [run_key stack before orClose legibleKey, Parser.run_append, run, Option.bind_some, has.run_closes .comma]
    exact more

end

theorem parse?_print {j : Json} (legible : IsLegible j) : parse? j.print = some j := by
  obtain ⟨p, run, has⟩ := run_print [] false j legible
  rw [parse?, show Parser.initial = Parser.before [] false from rfl, run]
  exact has.result?

end Onboard.Json
