import Onboard.Json.Literal
import Onboard.Json.Reader

/-!
Typed values from JSON values. A decoder answers nothing if the value has another form. Records may stand as objects
with their fields in any order, other fields skipped, or as arrays of exactly their fields.
-/

namespace Onboard.Json

/-- A whole number up to `limit`, written with digits alone. -/
def toNat? (limit : Nat) : Json → Option Nat
  | .number literal =>
    if literal.all isDigit then
      let n := literal.foldl (fun n b => 10 * n + (b.toNat - 0x30)) 0
      if n ≤ limit then some n else none
    else none
  | _ => none

/-- The numeral of a literal that the lexer has let pass. -/
def numeral? (literal : Bytes) : Option Numeral :=
  let chars := literal.map fun b => Char.ofNat b.toNat
  match chars with
  | '-' :: rest => Numeral.unsigned? true rest
  | rest => Numeral.unsigned? false rest

def toFloat? : Json → Option Float
  | .number literal => do
    let n ← numeral? literal
    let x := n.toFloat
    if x.isFinite then some x else none
  | _ => none

/-- Whole numbers of 64 bits are rounded to a single at once, others by way of a double. -/
def toSingle? : Json → Option Single
  | .number literal =>
    match (Literal.ofBytes literal).integer? with
    | some (negative, n) => some (Single.ofParts negative (BinaryFormat.single.roundRatio n 1))
    | none => (toFloat? (.number literal)).map Single.ofFloat
  | _ => none

def toBool? : Json → Option Bool
  | .bool value => some value
  | _ => none

def toText? : Json → Option String
  | .string content => contentText? content
  | _ => none

def toList? {α : Type} (item : Json → Option α) : Json → Option (List α)
  | .array items => items.mapM item
  | _ => none

def toOption? {α : Type} (item : Json → Option α) : Json → Option (Option α)
  | .null => some none
  | j => (item j).map some

/-- A variant's name and the value it carries; a name alone carries nothing. -/
def toVariant? : Json → Option (String × Option Json)
  | .string content => (contentText? content).map (·, none)
  | .object [(key, value)] => (contentText? key).map (·, some value)
  | _ => none

/-- The name of a variant that carries no data; a null may stand for the missing data. -/
def toUnitVariant? (j : Json) : Option String := do
  match ← j.toVariant? with
  | (name, none) => some name
  | (name, some .null) => some name
  | _ => none

/-- The members of an object whose names are known, each at most once. -/
def knownMembers? (names : List String) : List (Bytes × Json) → Option (List (String × Json))
  | [] => some []
  | (key, value) :: rest => do
    let name ← contentText? key
    let others ← knownMembers? names rest
    if names.contains name then
      if (others.lookup name).isSome then none else some ((name, value) :: others)
    else some others

/-- The values of a record's fields in order, where they are present. -/
def fields? (names : List String) : Json → Option (List (Option Json))
  | .object members => (knownMembers? names members).map fun known => names.map fun name => known.lookup name
  | .array items => if items.length = names.length then some (items.map some) else none
  | _ => none

def required {α : Type} (item : Json → Option α) (field : Option Json) : Option α :=
  field.bind item

end Onboard.Json
