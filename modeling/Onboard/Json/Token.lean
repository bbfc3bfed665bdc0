import Onboard.Json.Value

/-!
Tokens of JSON text, read one byte at a time. `Lexer.step` takes a byte in the state of the token begun before it
and gives the tokens that the byte completes; `Lexer.finish` refuses a text that ends inside a token.
-/

namespace Onboard.Json

inductive Token where
  | openObject
  | closeObject
  | openArray
  | closeArray
  | colon
  | comma
  | null
  | bool (value : Bool)
  | number (literal : Bytes)
  | string (content : Bytes)
  deriving DecidableEq

/-- Space, tab, line feed and carriage return. -/
def isBlank (b : UInt8) : Bool :=
  b = 0x20 || b = 0x09 || b = 0x0A || b = 0x0D

def isDigit (b : UInt8) : Bool :=
  0x30 ≤ b && b ≤ 0x39

def isHexDigit (b : UInt8) : Bool :=
  isDigit b || (0x41 ≤ b && b ≤ 0x46) || (0x61 ≤ b && b ≤ 0x66)

/-- The letters that may follow a backslash alone: quote, backslash, slash and b, f, n, r, t. -/
def isEscapeLetter (b : UInt8) : Bool :=
  (ascii "\"\\/bfnrt").contains b

/-- How far a number literal has come. -/
inductive NumberPart where
  | minus
  | zero
  | whole
  | point
  | fraction
  | mark
  | markSign
  | exponent
  deriving DecidableEq

namespace NumberPart

def isComplete : NumberPart → Bool
  | .zero | .whole | .fraction | .exponent => true
  | .minus | .point | .mark | .markSign => false

def next? (part : NumberPart) (b : UInt8) : Option NumberPart :=
  let digit := isDigit b
  let isMark := b = 0x65 || b = 0x45
  match part with
  | .minus => if b = 0x30 then some .zero else if digit then some .whole else none
  | .zero => if b = 0x2E then some .point else if isMark then some .mark else none
  | .whole => if digit then some .whole else if b = 0x2E then some .point else if isMark then some .mark else none
  | .point => if digit then some .fraction else none
  | .fraction => if digit then some .fraction else if isMark then some .mark else none
  | .mark => if digit then some .exponent else if b = 0x2B || b = 0x2D then some .markSign else none
  | .markSign => if digit then some .exponent else none
  | .exponent => if digit then some .exponent else none

end NumberPart

/-- Where a string stands after a backslash: at the letter, or with hexadecimal digits owed. -/
inductive Escape where
  | none
  | letter
  | hex (owed : Nat)
  deriving DecidableEq

/-- The token begun and not finished, with what is read of it, last byte first. -/
inductive Lexer where
  | between
  | word (owed : Bytes) (token : Token)
  | string (read : Bytes) (escape : Escape)
  | number (read : Bytes) (part : NumberPart)
  deriving DecidableEq

namespace Lexer

def start (b : UInt8) : Option (List Token × Lexer) :=
  if isBlank b then some ([], .between)
  else if b = 0x7B then some ([.openObject], .between)
  else if b = 0x7D then some ([.closeObject], .between)
  else if b = 0x5B then some ([.openArray], .between)
  else if b = 0x5D then some ([.closeArray], .between)
  else if b = 0x3A then some ([.colon], .between)
  else if b = 0x2C then some ([.comma], .between)
  else if b = 0x22 then some ([], .string [] .none)
  else if b = 0x6E then some ([], .word (ascii "ull") .null)
  else if b = 0x74 then some ([], .word (ascii "rue") (.bool true))
  else if b = 0x66 then some ([], .word (ascii "alse") (.bool false))
  else if b = 0x2D then some ([], .number [b] .minus)
  else if b = 0x30 then some ([], .number [b] .zero)
  else if isDigit b then some ([], .number [b] .whole)
  else none

def stringStep (read : Bytes) (escape : Escape) (b : UInt8) : Option (List Token × Lexer) :=
  match escape with
  | .none =>
    if b = 0x22 then some ([.string read.reverse], .between)
    else if b = 0x5C then some ([], .string (b :: read) .letter)
    else if b < 0x20 then none
    else some ([], .string (b :: read) .none)
  | .letter =>
    if isEscapeLetter b then some ([], .string (b :: read) .none)
    else if b = 0x75 then some ([], .string (b :: read) (.hex 4))
    else none
  | .hex owed =>
    if isHexDigit b then some ([], .string (b :: read) (if owed ≤ 1 then .none else .hex (owed - 1))) else none

/-- The tokens that one byte completes and the state after it. A number ends at the first byte that cannot go on
with it, and that byte is looked at again. -/
def step (state : Lexer) (b : UInt8) : Option (List Token × Lexer) :=
  match state with
  | .between => start b
  | .word owed token =>
    match owed with
    | [] => none
    | [last] => if b = last then some ([token], .between) else none
    | first :: rest => if b = first then some ([], .word rest token) else none
  | .string read escape => stringStep read escape b
  | .number read part =>
    match part.next? b with
    | some part => some ([], .number (b :: read) part)
    | none =>
      if part.isComplete then (start b).map fun r => (.number read.reverse :: r.1, r.2) else none

def finish : Lexer → Option (List Token)
  | .between => some []
  | .number read part => if part.isComplete then some [.number read.reverse] else none
  | _ => none

end Lexer

end Onboard.Json
