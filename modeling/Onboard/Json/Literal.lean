import Onboard.Json.Text
import Onboard.Number.Reading

/-!
Number literals with more digits than a double holds. Receivers of messages take as many digits as a whole number of
64 bits holds, and scale that number by powers of ten; each of these steps rounds. `settle` replaces the literals in
a value by those of the doubles that are read in this way, and leaves whole numbers of 64 bits as they are.
-/

namespace Onboard.Json

structure Literal where
  negative : Bool
  whole : List Char
  fraction : List Char
  exponent : Option Int

namespace Literal

def ofBytes (literal : Bytes) : Literal :=
  let chars := literal.map fun b => Char.ofNat b.toNat
  let signed : Bool × List Char := match chars with
    | '-' :: rest => (true, rest)
    | rest => (false, rest)
  let rest := signed.2.dropWhile Onboard.isDigit
  let fraction := match rest with
    | '.' :: more => more.takeWhile Onboard.isDigit
    | _ => []
  ⟨signed.1, signed.2.takeWhile Onboard.isDigit, fraction,
    Numeral.exponent? ((rest.dropWhile fun c => c ≠ 'e' ∧ c ≠ 'E').drop 1)⟩

/-- The whole number that a literal without point and exponent spells, as its sign and its size, if it fits in 64
bits. Zero has no sign here. -/
def integer? (l : Literal) : Option (Bool × Nat) :=
  let n := digitsValue 0 l.whole
  let fits := if l.negative then 0 < n && n ≤ 0x8000000000000000 else n ≤ 0xFFFFFFFFFFFFFFFF
  if l.fraction = [] ∧ l.exponent = none ∧ fits then some (l.negative, n) else none

/-- Takes digits into a number of 64 bits until one does not fit. That one and those after it are left over. -/
def takeDigits (n : Nat) : List Char → Nat × List Char
  | [] => (n, [])
  | c :: rest =>
    let next := digitsValue n [c]
    if next ≤ 0xFFFFFFFFFFFFFFFF then takeDigits next rest else (n, c :: rest)

/-- The largest exponent of a power of ten that is a finite double. -/
def largestPower : Nat := 308

def powerOfTen (exponent : Nat) : Float :=
  Double.ofDecimal false 1 exponent

/-- Scales by a power of ten, or by several of them if one does not reach. -/
def scale (x : Float) (exponent : Int) : Float :=
  if _near : exponent.natAbs ≤ largestPower then
    if 0 ≤ exponent then x * powerOfTen exponent.natAbs else x / powerOfTen exponent.natAbs
  else if x == 0.0 then x
  else if _above : 0 ≤ exponent then Double.infinity
  else scale (x / powerOfTen largestPower) (exponent + largestPower)
termination_by exponent.natAbs
decreasing_by simp only [largestPower] at *; omega

/-- The double that a receiver makes of a literal. -/
def toFloat (l : Literal) : Float :=
  let whole := takeDigits 0 l.whole
  let all := takeDigits whole.1 l.fraction
  let places : Int := l.fraction.length - all.2.length
  let x := scale (Double.ofNat all.1) (l.exponent.getD 0 + whole.2.length - places)
  if l.negative then -x else x

end Literal

/-- Stands for all numbers that are out of range. -/
def tooLarge : Bytes := ascii "1e999"

def settleLiteral (literal : Bytes) : Bytes :=
  let l := Literal.ofBytes literal
  match l.integer? with
  | some _ => literal
  | none =>
    match ofFloat l.toFloat with
    | .number settled => settled
    | _ => tooLarge

mutual

def settle : Json → Json
  | .number literal => .number (settleLiteral literal)
  | .array items => .array (settleItems items)
  | .object members => .object (settleMembers members)
  | j => j

def settleItems : List Json → List Json
  | [] => []
  | item :: rest => settle item :: settleItems rest

def settleMembers : List (Bytes × Json) → List (Bytes × Json)
  | [] => []
  | (key, value) :: rest => (key, settle value) :: settleMembers rest

end

end Onboard.Json
