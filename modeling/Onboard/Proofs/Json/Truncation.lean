import Mathlib.Logic.Basic
import Onboard.Json.Reader

/-! Texts that are cut short. A container closes itself, and after it nothing but blanks may come. So the beginning of
a text that holds one is read as the same value if only blanks are missing, and as none otherwise; a number alone can
be cut and still be one. -/

namespace Onboard.Json

/-- A value that ends by itself, and not by what follows it. -/
def IsClosed (j : Json) : Prop :=
  ∀ literal, j ≠ .number literal

namespace Lexer

/-- The letters that a word still owes are no blanks. -/
def OwesLetters : Lexer → Prop
  | .word owed _ => ∀ b ∈ owed, isBlank b = false
  | _ => True

/-- What a byte between tokens does: nothing, a token of its own, or the begin of a longer one. -/
inductive Starts (b : UInt8) : List Token → Lexer → Prop where
  | blank : isBlank b = true → Starts b [] .between
  | mark (token : Token) : Starts b [token] .between
  | begun : isBlank b = false → next ≠ .between → next.OwesLetters → Starts b [] next

theorem start_blank (blank : isBlank b = true) : start b = some ([], .between) :=
  if_pos blank

theorem starts (started : start b = some (tokens, next)) : Starts b tokens next := by
  have letters (word : String) (owed : ∀ b ∈ ascii word, isBlank b = false) (token : Token) :
      (Lexer.word (ascii word) token).OwesLetters := owed
  rcases ite_eq_iff.mp started with ⟨blank, same⟩ | ⟨other, started⟩
  · cases same
    exact .blank blank
  · have other := Bool.of_not_eq_true other
    -- The bytes that begin a token are tried one after the other; each has one branch of the definition.
    iterate 13
      rcases ite_eq_iff.mp started with ⟨-, same⟩ | ⟨-, started⟩
      · cases same
        first
          | exact .mark _
          | exact .begun other nofun trivial
          | exact .begun other nofun (letters _ (by decide +kernel) _)
    cases started

theorem Starts.owesLetters (starts : Starts b tokens next) : next.OwesLetters := by
  cases starts with
  | blank | mark => trivial
  | begun _ _ owes => exact owes

/-- A byte that completes no token leaves the lexer inside the one begun before. -/
theorem step_begun {lexer : Lexer} (begun : lexer ≠ .between) (stepped : lexer.step b = some ([], next)) :
    next ≠ .between := by
  rintro rfl
  cases lexer with
  | between => exact begun rfl
  | word owed token =>
    simp only [step] at stepped
    repeat' split at stepped
    all_goals cases stepped
  | string read escape =>
    simp only [step, stringStep] at stepped
    repeat' split at stepped
    all_goals cases stepped
  | number read part =>
    simp only [step] at stepped
    repeat' split at stepped
    · cases stepped
    · obtain ⟨_, -, same⟩ := Option.map_eq_some_iff.mp stepped
      cases same
    · cases stepped

theorem OwesLetters.step {lexer : Lexer} (owes : lexer.OwesLetters) (stepped : lexer.step b = some (tokens, next)) :
    next.OwesLetters := by
  cases lexer with
  | between => exact (starts stepped).owesLetters
  | word owed token =>
    simp only [Lexer.step] at stepped
    repeat' split at stepped
    all_goals cases stepped
    · trivial
    · exact fun c member => owes c (List.mem_cons_of_mem _ member)
  | string read escape =>
    simp only [Lexer.step, stringStep] at stepped
    repeat' split at stepped
    all_goals cases stepped
    all_goals trivial
  | number read part =>
    simp only [Lexer.step] at stepped
    repeat' split at stepped
    · cases stepped
      trivial
    · obtain ⟨r, first, same⟩ := Option.map_eq_some_iff.mp stepped
      cases same
      exact (starts first).owesLetters
    · cases stepped

/-- A blank ends what has begun before it just as the end of the text does. -/
theorem finish_blank {lexer : Lexer} (owes : lexer.OwesLetters) (blank : isBlank b = true) :
    ((lexer.step b).bind fun r => r.2.finish.map (r.1 ++ ·)) = lexer.finish := by
  have known : b = 0x20 ∨ b = 0x09 ∨ b = 0x0A ∨ b = 0x0D := by
    simpa [isBlank, or_assoc] using blank
  cases lexer with
  | between => rcases known with rfl | rfl | rfl | rfl <;> rfl
  | word owed token =>
    cases owed with
    | nil => rfl
    | cons first rest =>
      have other : b ≠ first := by
        rintro rfl
        exact Bool.noConfusion ((owes b List.mem_cons_self).symm.trans blank)
      cases rest with
      | nil =>
        rw [step, if_neg other]
        rfl
      | cons =>
        rw [step, if_neg other]
        · rfl
        · intro nothing
          cases nothing
  | string read escape => rcases known with rfl | rfl | rfl | rfl <;> cases escape <;> rfl
  | number read part => rcases known with rfl | rfl | rfl | rfl <;> cases part <;> rfl

end Lexer

theorem Reader.run_append (r : Reader) (a b : List Token) : r.run (a ++ b) = (r.run a).bind (·.run b) := by
  induction a generalizing r with
  | nil => rfl
  | cons token rest ih =>
    rw [List.cons_append, Reader.run, Reader.run, Option.bind_assoc]
    exact congrArg _ (funext fun next => ih next)

/-- After a whole value the reader takes no token. -/
theorem Reader.run_closed (taken : Reader.run ⟨[], .next value⟩ tokens = some r) :
    tokens = [] ∧ r = ⟨[], .next value⟩ := by
  cases tokens with
  | nil => exact ⟨rfl, (Option.some.inj taken).symm⟩
  | cons token rest => cases token <;> cases taken

/-- The only value a number leaves with no container open is itself. -/
theorem Reader.value_eq_number {r : Reader} (taken : r.run [.number literal] = some ⟨[], .next value⟩) :
    value = .number literal := by
  obtain ⟨next, stepped, same⟩ := Option.bind_eq_some_iff.mp taken
  cases same
  obtain ⟨stack, expect⟩ := r
  cases expect with
  | value => cases stepped; rfl
  | key | colon => cases stepped
  | next last => rcases stack with _ | ⟨_ | _, rest⟩ <;> cases stepped

theorem Reader.result?_eq_some {r : Reader} (found : r.result? = some value) : r = ⟨[], .next value⟩ := by
  obtain ⟨stack, expect⟩ := r
  unfold Reader.result? at found
  split at found
  · next same waits =>
    cases found
    cases same
    cases waits
    rfl
  · cases found

namespace Parser

/-- The parser after a value that has ended by itself. -/
def closed (value : Json) : Parser :=
  ⟨.between, ⟨[], .next value⟩⟩

theorem step_eq_some {p q : Parser} (stepped : p.step b = some q) :
    ∃ tokens, p.lexer.step b = some (tokens, q.lexer) ∧ p.reader.run tokens = some q.reader := by
  simp only [step, Option.bind_eq_bind, Option.bind_eq_some_iff] at stepped
  obtain ⟨⟨tokens, lexer⟩, lexed, reader, taken, same⟩ := stepped
  cases same
  exact ⟨tokens, lexed, taken⟩

theorem result?_eq (p : Parser) : p.result? = (p.lexer.finish.bind p.reader.run).bind Reader.result? := by
  rw [result?, Option.bind_eq_bind, Option.bind_assoc]
  rfl

theorem run_cons (p : Parser) (b : UInt8) (rest : Bytes) : p.run (b :: rest) = (p.step b).bind (·.run rest) := by
  rw [run]
  cases p.step b <;> rfl

theorem result?_step {p : Parser} (owes : p.lexer.OwesLetters) (blank : isBlank b = true) :
    (p.step b).bind result? = p.result? := by
  rw [result?_eq, ← Lexer.finish_blank owes blank, step]
  cases p.lexer.step b with
  | none => rfl
  | some r =>
    obtain ⟨tokens, lexer⟩ := r
    simp only [Option.bind_eq_bind, Option.bind_some, Option.bind_assoc]
    cases ended : lexer.finish with
    | none => cases p.reader.run tokens <;> simp [result?_eq, ended]
    | some last => cases taken : p.reader.run tokens <;> simp [result?_eq, ended, Reader.run_append, taken]

/-- Blanks at the end of a text change nothing. -/
theorem result?_run {p : Parser} (owes : p.lexer.OwesLetters) (blank : rest.all isBlank = true) :
    (p.run rest).bind result? = p.result? := by
  induction rest generalizing p with
  | nil => rfl
  | cons b rest ih =>
    rw [List.all_cons, Bool.and_eq_true] at blank
    rw [run_cons, Option.bind_assoc, ← result?_step owes blank.1]
    cases stepped : p.step b with
    | none => rfl
    | some q =>
      obtain ⟨tokens, lexed, -⟩ := step_eq_some stepped
      exact ih (owes.step lexed) blank.2

theorem owesLetters_run {p q : Parser} (owes : p.lexer.OwesLetters) (ran : p.run text = some q) :
    q.lexer.OwesLetters := by
  induction text generalizing p with
  | nil =>
    cases ran
    exact owes
  | cons b rest ih =>
    rw [run_cons] at ran
    obtain ⟨next, stepped, ran⟩ := Option.bind_eq_some_iff.mp ran
    obtain ⟨tokens, lexed, -⟩ := step_eq_some stepped
    exact ih (owes.step lexed) ran

/-- A token begun after a whole value is one too many, wherever it ends. -/
theorem result?_begun {lexer : Lexer} (begun : lexer ≠ .between) (rest : Bytes) :
    (run ⟨lexer, ⟨[], .next value⟩⟩ rest).bind result? = none := by
  induction rest generalizing lexer with
  | nil =>
    rw [run, Option.bind_some, result?_eq]
    cases lexer with
    | between => contradiction
    | word | string => rfl
    | number read part => cases part <;> rfl
  | cons b rest ih =>
    rw [run_cons, Option.bind_assoc]
    cases stepped : step ⟨lexer, ⟨[], .next value⟩⟩ b with
    | none => rfl
    | some q =>
      obtain ⟨next, reader⟩ := q
      obtain ⟨tokens, lexed, taken⟩ := step_eq_some stepped
      obtain ⟨rfl, rfl⟩ := Reader.run_closed taken
      exact ih (Lexer.step_begun begun lexed)

/-- After a whole value nothing but blanks may come. -/
theorem result?_closed (value : Json) (rest : Bytes) :
    ((closed value).run rest).bind result? = if rest.all isBlank then some value else none := by
  induction rest with
  | nil => rfl
  | cons b rest ih =>
    rw [run_cons, Option.bind_assoc, List.all_cons]
    cases stepped : (closed value).step b with
    | none =>
      have other : isBlank b = false := by
        refine Bool.eq_false_iff.mpr fun blank => ?_
        have started := Lexer.start_blank blank
        simp [closed, step, Lexer.step, started, Reader.run] at stepped
      rw [other]
      rfl
    | some q =>
      obtain ⟨lexer, reader⟩ := q
      obtain ⟨tokens, lexed, taken⟩ := step_eq_some stepped
      obtain ⟨rfl, rfl⟩ := Reader.run_closed taken
      cases Lexer.starts lexed with
      | blank blank =>
        rw [blank, Bool.true_and]
        exact ih
      | begun other begun =>
        rw [other, Bool.false_and]
        exact result?_begun begun rest

/-- A text is read up to its end; only a number is not ended before. -/
theorem eq_closed {p : Parser} (found : p.result? = some j) (whole : IsClosed j) : p = closed j := by
  obtain ⟨lexer, reader⟩ := p
  rw [result?_eq, Option.bind_assoc, Option.bind_eq_some_iff] at found
  obtain ⟨tokens, ended, found⟩ := found
  obtain ⟨last, taken, found⟩ := Option.bind_eq_some_iff.mp found
  cases Reader.result?_eq_some found
  cases lexer with
  | between =>
    cases ended
    cases taken
    rfl
  | word | string => cases ended
  | number read part =>
    obtain ⟨finished, same⟩ := Option.ite_none_right_eq_some.mp ended
    cases same
    exact absurd (Reader.value_eq_number taken) (whole _)

end Parser

/-- What stands after a closed value decides whether the text is one: only blanks may. -/
theorem parse?_append (parsed : parse? text = some j) (whole : IsClosed j) (rest : Bytes) :
    parse? (text ++ rest) = if rest.all isBlank then some j else none := by
  obtain ⟨p, ran, found⟩ := Option.bind_eq_some_iff.mp parsed
  rw [parse?, Parser.run_append, ran, Option.bind_some, Parser.eq_closed found whole, Parser.result?_closed]

theorem parse?_append_blank (text : Bytes) (blank : rest.all isBlank = true) : parse? (text ++ rest) = parse? text := by
  rw [parse?, parse?, Parser.run_append]
  cases ran : Parser.initial.run text with
  | none => rfl
  | some p => exact Parser.result?_run (Parser.owesLetters_run (p := .initial) trivial ran) blank

end Onboard.Json
