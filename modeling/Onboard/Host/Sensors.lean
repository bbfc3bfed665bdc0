import Onboard.Host.Storage
import Onboard.Log
import Onboard.Number.Reading
import Onboard.Text.Blank
import Onboard.Text.Quoted

/-!
What the robot learns from small files of its computer: the processor's temperature in thousandths of a degree and
labels on the first lines of files.
-/

namespace Onboard.Host

/-- Degrees from a file that holds one number; otherwise nothing, and a warning that says why. -/
def temperature (path : String) (contents : Except IoFailure String) : Option Float × List LogLine :=
  match contents with
  | .error e =>
    (none, [.warn ("Could not open CPU temperature file " ++ Text.quoted path ++ ": " ++ e.message)])
  | .ok text =>
    let trimmed := Text.trim text.toList
    match readNumber trimmed with
    | .ok thousandths => (some (thousandths / 1000.0), [])
    | .error e =>
      (none, [.warn ("Could not parse CPU temperature " ++ Text.quoted (String.ofList trimmed) ++ ": " ++ e.message)])

/-- A line without its ending; a carriage return belongs to the ending only before a line feed. -/
def lineEnd (line : List Char) (ended : Bool) : List Char :=
  if ended ∧ line.getLast? = some '\r' then line.dropLast else line

def firstLine? (text : String) : Option String :=
  let chars := text.toList
  if chars = [] then none
  else
    let line := chars.takeWhile (· ≠ '\n')
    some (String.ofList (lineEnd line (line.length < chars.length)))

/-- The first line of a file; nothing if the file cannot be read or is no text. -/
def firstLineOf (contents : Except IoFailure String) : Option String :=
  contents.toOption.bind firstLine?

end Onboard.Host
