/-!
Paths as text. A path is absolute or relative to another one, and names what its parts lead to from a root.
-/

namespace Onboard.Path

/-- A path as seen from `base`: an absolute one is kept, another one is appended behind one separator. -/
def join (base part : String) : String :=
  if part.startsWith "/" then part
  else if base.isEmpty || base.endsWith "/" then base ++ part
  else base ++ "/" ++ part

def names (path : String) : List String :=
  ((path.toList.splitOn '/').map String.ofList).filter fun name => name ≠ ""

inductive Ending where
  /-- In a name, where something may lie or not. -/
  | name
  /-- In a name and a separator, as only the path of a directory does. -/
  | separator
  /-- In one or two points, or in no name at all: at a directory that has been passed. -/
  | passed
  deriving DecidableEq

def ending (path : String) : Ending :=
  match (names path).getLast? with
  | none => .passed
  | some last =>
    if last = "." ∨ last = ".." then .passed else if path.endsWith "/" then .separator else .name

end Onboard.Path
