import Onboard.Json.Token
import Onboard.Number.Layout

/-!
What stands between the quotes of a string, and the literals of numbers. Writing escapes the quote, the backslash and
the controls; reading undoes every escape, joins surrogate halves and refuses half a pair and bytes that are no UTF-8.
-/

namespace Onboard.Json

def hexValue (b : UInt8) : Nat :=
  if isDigit b then b.toNat - 0x30 else if b < 0x61 then b.toNat - 0x37 else b.toNat - 0x57

def hexLetter (n : Nat) : UInt8 :=
  UInt8.ofNat (if n < 10 then 0x30 + n else 0x57 + n)

def escapeByte (b : UInt8) : Bytes :=
  if b = 0x22 then [0x5C, 0x22]
  else if b = 0x5C then [0x5C, 0x5C]
  else if b = 0x08 then [0x5C, 0x62]
  else if b = 0x0C then [0x5C, 0x66]
  else if b = 0x0A then [0x5C, 0x6E]
  else if b = 0x0D then [0x5C, 0x72]
  else if b = 0x09 then [0x5C, 0x74]
  else if b < 0x20 then [0x5C, 0x75, 0x30, 0x30, hexLetter (b.toNat / 16), hexLetter (b.toNat % 16)]
  else [b]

def escape (text : Bytes) : Bytes :=
  text.flatMap escapeByte

def unescapeLetter (b : UInt8) : UInt8 :=
  if b = 0x62 then 0x08
  else if b = 0x66 then 0x0C
  else if b = 0x6E then 0x0A
  else if b = 0x72 then 0x0D
  else if b = 0x74 then 0x09
  else b

def codePoint (n : Nat) : Bytes :=
  Utf8.encode (String.singleton (Char.ofNat n))

def fourHex (a b c d : UInt8) : Nat :=
  ((hexValue a * 16 + hexValue b) * 16 + hexValue c) * 16 + hexValue d

/-- Undoes the escapes of a content whose escapes are well formed; a first surrogate half has to be followed by a
second one. -/
def unescape? : Bytes → Option Bytes
  | [] => some []
  | 0x5C :: 0x75 :: a :: b :: c :: d :: rest =>
    let n := fourHex a b c d
    if n < 0xD800 ∨ 0xE000 ≤ n then (unescape? rest).map (codePoint n ++ ·)
    else
      match rest with
      | 0x5C :: 0x75 :: e :: f :: g :: h :: rest =>
        let m := fourHex e f g h
        if n < 0xDC00 ∧ 0xDC00 ≤ m ∧ m < 0xE000 then
          (unescape? rest).map (codePoint (0x10000 + (n - 0xD800) * 0x400 + (m - 0xDC00)) ++ ·)
        else none
      | _ => none
  | 0x5C :: letter :: rest => (unescape? rest).map (unescapeLetter letter :: ·)
  | b :: rest => (unescape? rest).map (b :: ·)

def ofText (text : String) : Json :=
  .string (escape (Utf8.encode text))

def contentText? (content : Bytes) : Option String :=
  (unescape? content).bind Utf8.decode?

def ofNat (n : Nat) : Json :=
  .number (ascii (toString n))

def ofInt (n : Int) : Json :=
  .number (ascii (toString n))

/-- Numbers that are not finite have no literal and become null. -/
def ofFloat (x : Float) : Json :=
  if x.isFinite then .number ((Layout.wire.finite x).map fun c => UInt8.ofNat c.toNat) else .null

def ofSingle (x : Single) : Json :=
  if x.isFinite then .number ((Layout.wireSingle.finiteSingle x).map fun c => UInt8.ofNat c.toNat) else .null

end Onboard.Json
