import Onboard.Text.Hidden

/-!
Text in messages: quoted with escapes, numbers in hexadecimal, and padding to a width.
-/

namespace Onboard.Text

/-- Hexadecimal digits with no zeros in front. -/
def hexDigits (n : Nat) : List Char :=
  Nat.toDigits 16 n

def padLeft (width : Nat) (fill : Char) (s : List Char) : List Char :=
  List.replicate (width - s.length) fill ++ s

/-- Upper-case hexadecimal with at least `width` digits. -/
def upperHex (width n : Nat) : String :=
  String.ofList (padLeft width '0' ((hexDigits n).map Char.toUpper))

/-- Lower-case hexadecimal with at least `width` digits. -/
def lowerHex (width n : Nat) : String :=
  String.ofList (padLeft width '0' (hexDigits n))

def quoteChar (c : Char) : List Char :=
  if c = '\t' then ['\\', 't']
  else if c = '\r' then ['\\', 'r']
  else if c = '\n' then ['\\', 'n']
  else if c = '"' || c = '\\' then ['\\', c]
  else if c.toNat = 0 then ['\\', '0']
  else if isHidden c then ['\\', 'u', '\x7b'] ++ hexDigits c.toNat ++ ['\x7d']
  else [c]

/-- Text between double quotes; what shows nothing of its own is escaped. -/
def quoted (s : String) : String :=
  String.ofList ('"' :: s.toList.flatMap quoteChar ++ ['"'])

end Onboard.Text
