import Onboard.Toml.Token

/-!
Numbers in TOML text. Digits may be grouped by single underscores; decimal numbers have no zero in front; a fraction
and an exponent need digits, and a number beyond the range of doubles is refused.
-/

namespace Onboard.Toml

abbrev Parse (α : Type) := List Token → Option (α × List Token)

/-- Which digits a run may hold and how it may begin. -/
structure DigitForm where
  radix : Nat
  allowSign : Bool
  allowLeadingZeros : Bool

/-- The digits read so far, last first, and what the next character may be. -/
structure DigitRun where
  read : List Char
  hasZeroInFront : Bool
  endsInUnderscore : Bool

namespace DigitRun

def empty : DigitRun := ⟨[], false, false⟩

def isDigitOf (radix : Nat) (c : Char) : Bool :=
  match hexDigit? c with
  | some d => d < radix
  | none => false

/-- Reads digits and underscores as far as they go. -/
def extend (form : DigitForm) (run : DigitRun) : List Char → Option (DigitRun × List Char)
  | [] => some (run, [])
  | c :: rest =>
    let isFirst := run.read = [] && !run.hasZeroInFront
    if c = '0' && isFirst then extend form ⟨['0'], true, false⟩ rest
    else if isDigitOf form.radix c then
      if run.hasZeroInFront && !form.allowLeadingZeros then none
      else extend form ⟨c :: run.read, run.hasZeroInFront, false⟩ rest
    else if c = '_' && isFirst then none
    else if c = '_' && !run.endsInUnderscore then extend form ⟨run.read, run.hasZeroInFront, true⟩ rest
    else some (run, c :: rest)

end DigitRun

/-- A sign and its digits, without underscores, and the characters after them. -/
structure Digits where
  negative : Bool
  digits : List Char
  rest : List Char

def digits? (form : DigitForm) (s : List Char) : Option Digits := do
  let (negative, body) := match s with
    | '-' :: body => if form.allowSign then (true, body) else (false, s)
    | '+' :: body => if form.allowSign then (false, body) else (false, s)
    | _ => (false, s)
  let (run, rest) ← DigitRun.empty.extend form body
  if run.read = [] || run.endsInUnderscore then none
  else return ⟨negative, run.read.reverse, rest⟩

def radixValue (radix : Nat) (digits : List Char) : Nat :=
  digits.foldl (fun n c => n * radix + (hexDigit? c).getD 0) 0

/-- A whole word as a signed 64-bit number. -/
def integer? (form : DigitForm) (s : List Char) : Option Int := do
  let d ← digits? form s
  let n := radixValue form.radix d.digits
  let value : Int := if d.negative then -n else n
  if d.rest = [] ∧ -0x8000000000000000 ≤ value ∧ value < 0x8000000000000000 then some value else none

def decimalForm : DigitForm := ⟨10, true, false⟩

def fractionForm : DigitForm := ⟨10, false, true⟩

def exponentForm : DigitForm := ⟨10, true, true⟩

/-- An exponent from its mark on; a mark at the end of a word goes on in the next word, after a plus. -/
def exponent? (s : List Char) (tokens : List Token) : Option (Int × List Token) :=
  let finish (d : Digits) (tokens : List Token) : Option (Int × List Token) :=
    let n : Int := digitsValue 0 d.digits
    if d.rest = [] then some (if d.negative then -n else n, tokens) else none
  match s with
  | [] => some (0, tokens)
  | c :: body =>
    if c = 'e' || c = 'E' then
      if body = [] then
        let tokens := if tokens.head? = some .plus then tokens.tail else tokens
        match tokens with
        | .word w :: tokens => (digits? fractionForm w).bind fun d => finish d tokens
        | _ => none
      else (digits? exponentForm body).bind fun d => finish d tokens
    else none

/-- A number with a fraction after a point, or none. -/
def float? (s : List Char) (fraction : Option (List Char)) (tokens : List Token) : Option (Float × List Token) := do
  let whole ← digits? decimalForm s
  let (places, suffix) ← match fraction with
    | none => some ([], whole.rest)
    | some f =>
      if whole.rest = [] then (digits? fractionForm f).map fun d => (d.digits, d.rest) else none
  let (exponent, tokens) ← exponent? suffix tokens
  let x := (Numeral.ofParts whole.negative whole.digits places exponent).toFloat
  if x.isFinite then some (x, tokens) else none

inductive Number where
  | integer (value : Int)
  | float (value : Float)

def number? (s : List Char) (tokens : List Token) : Option (Number × List Token) :=
  let withRadix (radix : Nat) (digits : List Char) : Option (Number × List Token) :=
    (integer? ⟨radix, false, true⟩ digits).map fun n => (.integer n, tokens)
  match s with
  | '0' :: 'x' :: digits => withRadix 16 digits
  | '0' :: 'o' :: digits => withRadix 8 digits
  | '0' :: 'b' :: digits => withRadix 2 digits
  | _ =>
    if s.contains 'e' || s.contains 'E' then (float? s none tokens).map fun r => (.float r.1, r.2)
    else
      match tokens with
      | .period :: tokens =>
        match tokens with
        | .word fraction :: tokens => (float? s (some fraction) tokens).map fun r => (.float r.1, r.2)
        | _ => none
      | _ =>
        if s = ['i', 'n', 'f'] then some (.float Double.infinity, tokens)
        else if s = ['-', 'i', 'n', 'f'] then some (.float (-Double.infinity), tokens)
        else if s = ['n', 'a', 'n'] || s = ['-', 'n', 'a', 'n'] then some (.float Double.nan, tokens)
        else (integer? decimalForm s).map fun n => (.integer n, tokens)

/-- Whether a word begins a date or a time of day rather than a number. -/
def looksLikeDate (s : List Char) : Bool :=
  let text := String.ofList s
  let hasSignedExponent := occurs "e-" text || occurs "E-" text
  s.contains 'T' || s.contains 't' || (s.tail.contains '-' && !hasSignedExponent)
where
  occurs (pair text : String) : Bool :=
    (text.toList.zip text.toList.tail).any fun p => [p.1, p.2] == pair.toList

/-- The minutes, seconds and the rest of a date with a time of day; its value is of no further use. -/
def timeOfDay? (tokens : List Token) : Option (Unit × List Token) :=
  match tokens with
  | .word _ :: .colon :: .word _ :: rest => do
    let rest ← afterMark .period rest
    let rest ← afterMark .plus rest
    let rest ← afterMark .colon rest
    return ((), rest)
  | _ => none
where
  /-- A mark has to be followed by a word. -/
  afterMark (mark : Token) : List Token → Option (List Token)
    | token :: rest =>
      if token = mark then
        match rest with
        | .word _ :: rest => some rest
        | _ => none
      else some (token :: rest)
    | [] => some []

/-- What follows the first word of a date: an hour after one space, and a time of day after a colon. -/
def afterDate? (tokens : List Token) : Option (List Token) :=
  let tokens := match tokens with
    | .blank [' '] :: .word _ :: rest => rest
    | rest => rest
  match tokens with
  | .colon :: rest => (timeOfDay? rest).map (·.2)
  | rest => some rest

end Onboard.Toml
