import Onboard.Json.Decode

/-!
Messages and their wire form. `Wire.write` gives the text of a message and `Wire.read?` the message of a text, with
the rounding of receivers, which is more than one where a literal has many digits or a large exponent.
-/

namespace Onboard

class Wire (α : Type) where
  toJson : α → Json
  ofJson? : Json → Option α

namespace Wire

/-- An object with fields in the order given. -/
def record (fields : List (String × Json)) : Json :=
  .object (fields.map fun f => (Json.escape (Utf8.encode f.1), f.2))

/-- A variant that carries data. -/
def variant (name : String) (value : Json) : Json :=
  record [(name, value)]

def write {α : Type} [Wire α] (message : α) : Bytes :=
  (toJson message).print

def read? {α : Type} [Wire α] (text : Bytes) : Option α :=
  (Json.parse? text).bind fun j => ofJson? j.settle

/-- The wire form of a list of variants that carry no data. -/
def names {α : Type} (name : α → String) (l : List α) : Json :=
  .array (l.map fun x => Json.ofText (name x))

/-- The member of a finite type that has a given name. -/
def named? {α : Type} (name : α → String) (all : List α) (j : Json) : Option α := do
  let s ← j.toUnitVariant?
  all.find? fun x => name x = s

end Wire

end Onboard
