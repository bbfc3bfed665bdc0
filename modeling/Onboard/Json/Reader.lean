import Onboard.Json.Token

/-!
JSON values from text. The reader keeps the containers that are still open on a stack, so that a text nested to any
depth is read in one pass; `parse?` accepts a text that holds one value and nothing after it.
-/

namespace Onboard.Json

/-- A container still open, with what it holds so far, last first. An object has the key of the value to come. -/
inductive Frame where
  | items (before : List Json)
  | members (before : List (Bytes × Json)) (key : Bytes)

/-- What has to come next. -/
inductive Expect where
  /-- A value, and also the end of the array if it is still empty. -/
  | value (orClose : Bool)
  /-- A key of the object whose members so far are given, and also its end if it is still empty. -/
  | key (before : List (Bytes × Json)) (orClose : Bool)
  /-- The colon after a key. -/
  | colon
  /-- A comma or the end of the innermost container, which holds this value last. -/
  | next (last : Json)

structure Reader where
  stack : List Frame
  expect : Expect

namespace Reader

def initial : Reader := ⟨[], .value false⟩

def scalar? : Token → Option Json
  | .null => some .null
  | .bool value => some (.bool value)
  | .number literal => some (.number literal)
  | .string content => some (.string content)
  | _ => none

/-- A comma or a closing bracket after a value. -/
def stepNext (stack : List Frame) (last : Json) (token : Token) : Option Reader :=
  match stack, token with
  | .items before :: rest, .comma => some ⟨.items (last :: before) :: rest, .value false⟩
  | .items before :: rest, .closeArray => some ⟨rest, .next (.array (last :: before).reverse)⟩
  | .members before key :: rest, .comma => some ⟨rest, .key ((key, last) :: before) false⟩
  | .members before key :: rest, .closeObject => some ⟨rest, .next (.object ((key, last) :: before).reverse)⟩
  | _, _ => none

def step (r : Reader) (token : Token) : Option Reader :=
  match r.expect with
  | .value orClose =>
    match token with
    | .openArray => some ⟨.items [] :: r.stack, .value true⟩
    | .openObject => some ⟨r.stack, .key [] true⟩
    | .closeArray =>
      match orClose, r.stack with
      | true, .items _ :: rest => some ⟨rest, .next (.array [])⟩
      | _, _ => none
    | token => (scalar? token).map fun v => ⟨r.stack, .next v⟩
  | .key before orClose =>
    match token with
    | .string content => some ⟨.members before content :: r.stack, .colon⟩
    | .closeObject => if orClose then some ⟨r.stack, .next (.object [])⟩ else none
    | _ => none
  | .colon =>
    match token with
    | .colon => some ⟨r.stack, .value false⟩
    | _ => none
  | .next last => stepNext r.stack last token

def run (r : Reader) : List Token → Option Reader
  | [] => some r
  | token :: rest => (r.step token).bind (run · rest)

/-- The value read, if it is finished and no container is open. -/
def result? (r : Reader) : Option Json :=
  match r.stack, r.expect with
  | [], .next value => some value
  | _, _ => none

end Reader

/-- The whole machine: bytes become tokens and these become values. -/
structure Parser where
  lexer : Lexer
  reader : Reader

namespace Parser

def initial : Parser := ⟨.between, .initial⟩

def step (p : Parser) (b : UInt8) : Option Parser := do
  let (tokens, lexer) ← p.lexer.step b
  let reader ← p.reader.run tokens
  return ⟨lexer, reader⟩

def run (p : Parser) : Bytes → Option Parser
  | [] => some p
  | b :: rest =>
    match p.step b with
    | some next => run next rest
    | none => none

theorem run_append (p : Parser) (a b : Bytes) : p.run (a ++ b) = (p.run a).bind (·.run b) := by
  induction a generalizing p with
  | nil => rfl
  | cons head rest ih =>
    simp only [List.cons_append, run]
    cases p.step head with
    | none => rfl
    | some next => exact ih next

def result? (p : Parser) : Option Json := do
  let tokens ← p.lexer.finish
  let reader ← p.reader.run tokens
  reader.result?

end Parser

def parse? (text : Bytes) : Option Json :=
  (Parser.initial.run text).bind Parser.result?

end Onboard.Json
