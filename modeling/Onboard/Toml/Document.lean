import Onboard.Toml.Value

/-!
A TOML document as one table. Sections are gathered under the paths of their headers; a header may stand before or
after those of its inner tables, but not twice, and a header of an array of tables opens one more item of it.
-/

namespace Onboard.Toml

/-- A header with the entries below it; the entries in front of all headers have the empty path. -/
structure Section where
  path : List String
  isArray : Bool
  entries : List (String × Value)

/-- Closes the section that is open and goes on with the next line. -/
def sectionsFrom (current : Section) (isOpen : Bool) : List Line → Option (List Section)
  | [] => some (if isOpen then [current] else [])
  | .header path isArray :: rest => do
    let later ← sectionsFrom ⟨path, isArray, []⟩ true rest
    return if isOpen then current :: later else later
  | .entry key more value :: rest => do
    let entries ← addDotted key more value current.entries
    sectionsFrom { current with entries := entries } true rest

def sections? (lines : List Line) : Option (List Section) :=
  sectionsFrom ⟨[], false, []⟩ false lines

/-- Sections by position; those whose entries have found their place are marked. -/
structure Gathering where
  sections : Array Section
  placed : Array Bool

namespace Gathering

/-- Which part of the document a table is gathered from. -/
structure Scope where
  /-- How much of the headers' paths leads to this table. -/
  depth : Nat
  /-- The section that stands for this table. -/
  owner : Nat
  /-- Sections from here on belong elsewhere. -/
  limit : Nat

def pathOf (g : Gathering) (i : Nat) : List String :=
  (g.sections[i]?.map Section.path).getD []

def isArrayAt (g : Gathering) (i : Nat) : Bool :=
  (g.sections[i]?.map Section.isArray).getD false

def entriesOf (g : Gathering) (i : Nat) : List (String × Value) :=
  (g.sections[i]?.map Section.entries).getD []

def place (g : Gathering) (i : Nat) : Gathering :=
  { g with placed := g.placed.modify i fun _ => true }

/-- The first section from `start` on, below the limit, that is not placed and whose path begins as the owner's. -/
def next? (g : Gathering) (scope : Scope) (start : Nat) : Option Nat :=
  let common := (g.pathOf scope.owner).take scope.depth
  (List.range scope.limit).find? fun i =>
    start ≤ i && !(g.placed[i]?.getD true) && common.isPrefixOf (g.pathOf i)

/-- The next header of the same array of tables. -/
def nextItem (g : Gathering) (owner limit : Nat) : Nat :=
  ((List.range limit).find? fun i => owner < i && g.isArrayAt i && g.pathOf i == g.pathOf owner).getD limit

mutual

/-- The entries of a table from the sections from `start` on, after those gathered already. -/
def entries? : (fuel : Nat) → Gathering → Scope → (start : Nat) → Option (List (String × Value) × Gathering)
  | 0, _, _, _ => none
  | fuel + 1, g, scope, start =>
    match g.next? scope start with
    | none => some ([], g)
    | some i =>
      let path := g.pathOf i
      if i ≠ scope.owner ∧ path = g.pathOf scope.owner then none
      else
        let owner := if i ≠ scope.owner ∧ path.length < (g.pathOf scope.owner).length then i else scope.owner
        let scope := { scope with owner := owner }
        match path.drop scope.depth with
        | [] =>
          if g.isArrayAt i then none
          else do
            let (later, g) ← entries? fuel (g.place i) scope i
            return (g.entriesOf i ++ later, g)
        | key :: _ => do
          let isItem := g.isArrayAt i && scope.depth + 1 = path.length
          let (value, g) ←
            if isItem then
              (items? fuel g (scope.depth + 1) i scope.limit).map fun r => (Value.array r.1, r.2)
            else
              (entries? fuel g ⟨scope.depth + 1, i, scope.limit⟩ 0).map fun r => (Value.table r.1, r.2)
          let (later, g) ← entries? fuel g scope (i + 1)
          return ((key, value) :: later, g)

/-- The items of an array of tables, the first of which has its header at `owner`. -/
def items? : (fuel : Nat) → Gathering → (depth owner limit : Nat) → Option (List Value × Gathering)
  | 0, _, _, _, _ => none
  | fuel + 1, g, depth, owner, limit =>
    if owner = limit then some ([], g)
    else do
      let next := g.nextItem owner limit
      let (inner, g) ← entries? fuel (g.place owner) ⟨depth, owner, next⟩ 0
      let (later, g) ← items? fuel g depth next limit
      return (.table (g.entriesOf owner ++ inner) :: later, g)

end

end Gathering

/-- The table of a whole document. -/
def document? (sections : List Section) : Option (List (String × Value)) :=
  let count := sections.length
  let steps := 2 * (count + (sections.map fun s => s.path.length).foldl (· + ·) 0) + 4
  let g : Gathering := ⟨sections.toArray, Array.replicate count false⟩
  (g.entries? (steps * steps) ⟨0, 0, count⟩ 0).map (·.1)

def parse? (text : String) : Option (List (String × Value)) := do
  let tokens ← tokens? text
  let lines ← lines? (tokens.length + 1) tokens
  document? (← sections? lines)

end Onboard.Toml
