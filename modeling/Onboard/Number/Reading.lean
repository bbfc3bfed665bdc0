import Onboard.Number.Single
import Onboard.Number.Shortest

/-!
Reading decimal numbers. `Numeral` is the value of a literal before it is rounded; `Numeral.ofText` reads the form
that files may use, where the point may stand first or last and infinities and not-a-numbers have names.
-/

namespace Onboard

def isDigit (c : Char) : Bool :=
  '0' ≤ c && c ≤ '9'

/-- The number that decimal digits spell, continuing from `value`. -/
def digitsValue (value : Nat) (digits : List Char) : Nat :=
  digits.foldl (fun n c => 10 * n + (c.toNat - 48)) value

/-- A literal as it stands: a sign and `digits * 10 ^ exponent`. -/
structure Numeral where
  negative : Bool
  digits : Nat
  exponent : Int
  deriving DecidableEq, Repr

namespace Numeral

/-- The parts of a literal: digits before and after the point and the exponent. -/
def ofParts (negative : Bool) (whole fraction : List Char) (exponent : Int) : Numeral :=
  ⟨negative, digitsValue 0 (whole ++ fraction), exponent - fraction.length⟩

def toFloat (n : Numeral) : Float :=
  Double.ofDecimal n.negative n.digits n.exponent

def exponent? : List Char → Option Int
  | '-' :: digits => if digits ≠ [] ∧ digits.all isDigit then some (-(digitsValue 0 digits : Int)) else none
  | '+' :: digits => if digits ≠ [] ∧ digits.all isDigit then some (digitsValue 0 digits : Int) else none
  | digits => if digits ≠ [] ∧ digits.all isDigit then some (digitsValue 0 digits : Int) else none

/-- Digits with a point anywhere, at least one digit, and an exponent or none. -/
def unsigned? (negative : Bool) (s : List Char) : Option Numeral :=
  let whole := s.takeWhile isDigit
  let rest := s.dropWhile isDigit
  let parts := match rest with
    | '.' :: more => (more.takeWhile isDigit, more.dropWhile isDigit)
    | _ => ([], rest)
  if whole = [] ∧ parts.1 = [] then none
  else
    match parts.2 with
    | [] => some (ofParts negative whole parts.1 0)
    | c :: more => if c = 'e' || c = 'E' then (exponent? more).map (ofParts negative whole parts.1) else none

end Numeral

inductive NumberError where
  | empty
  | invalid
  deriving DecidableEq, Repr

def NumberError.message : NumberError → String
  | .empty => "cannot parse float from empty string"
  | .invalid => "invalid float literal"

/-- The names of the numbers that have no digits, in either case. -/
def namedNumber? (negative : Bool) (s : List Char) : Option Float :=
  let name := String.ofList (s.map Char.toLower)
  if name = "nan" then some Double.nan
  else if name = "inf" || name = "infinity" then some (Double.ofParts negative BinaryFormat.double.infinity)
  else none

def readNumber (s : List Char) : Except NumberError Float :=
  let signed : Bool × List Char := match s with
    | '-' :: rest => (true, rest)
    | '+' :: rest => (false, rest)
    | rest => (false, rest)
  if s = [] then .error .empty
  else
    match Numeral.unsigned? signed.1 signed.2 with
    | some n => .ok n.toFloat
    | none =>
      match namedNumber? signed.1 signed.2 with
      | some x => .ok x
      | none => .error .invalid

end Onboard
