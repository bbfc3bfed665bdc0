import Onboard.Text.Quoted
import Onboard.Text.Utf8

/-!
Bytes shown in hexadecimal, two digits each.
-/

namespace Onboard.Text

def digitValue (c : Char) : Nat :=
  if c.isDigit then c.toNat - '0'.toNat
  else if 'a' ≤ c ∧ c ≤ 'f' then c.toNat - 'a'.toNat + 10
  else if 'A' ≤ c ∧ c ≤ 'F' then c.toNat - 'A'.toNat + 10
  else 0

/-- The number that hexadecimal digits spell. -/
def ofHexDigits (digits : List Char) : Nat :=
  digits.foldl (fun n c => n * 16 + digitValue c) 0

def dump (bytes : Bytes) : String :=
  String.join (bytes.map fun b => lowerHex 2 b.toNat)

/-- The bytes of a dump; a digit that stands alone at the end is left out. -/
def ofDump : List Char → Bytes
  | a :: b :: rest => UInt8.ofNat (ofHexDigits [a, b]) :: ofDump rest
  | _ => []

end Onboard.Text
