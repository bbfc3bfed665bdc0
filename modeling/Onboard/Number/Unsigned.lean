/-!
Unsigned whole numbers from text. Digits are taken one by one, and the first one that does not fit is the reason for
a refusal.
-/

namespace Onboard

inductive UnsignedError where
  | empty
  | invalidDigit
  | tooLarge
  deriving DecidableEq

def UnsignedError.message : UnsignedError → String
  | .empty => "cannot parse integer from empty string"
  | .invalidDigit => "invalid digit found in string"
  | .tooLarge => "number too large to fit in target type"

/-- The number that digits append to a value; nothing may exceed the limit. -/
def readDigits (limit value : Nat) : List Char → Except UnsignedError Nat
  | [] => .ok value
  | c :: rest =>
    if !c.isDigit then .error .invalidDigit
    else
      let next := value * 10 + (c.toNat - '0'.toNat)
      if limit < next then .error .tooLarge else readDigits limit next rest

/-- The number that a whole text spells, after a plus sign or none. -/
def readUnsigned (limit : Nat) (text : List Char) : Except UnsignedError Nat :=
  match text with
  | [] => .error .empty
  | ['+'] => .error .invalidDigit
  | '+' :: digits => readDigits limit 0 digits
  | digits => readDigits limit 0 digits

end Onboard
