import Onboard.Number.Reading
import Onboard.Text.Quoted

/-!
Internet addresses of both families, read from text and written in their canonical form. `IpAddress.ofText?` takes
a whole text or nothing.
-/

namespace Onboard

inductive IpAddress where
  | v4 (a b c d : UInt8)
  | v6 (groups : List UInt16) (length : groups.length = 8)
  deriving DecidableEq

namespace IpAddress

def digitIn? (base : Nat) (c : Char) : Option Nat :=
  let value :=
    if '0' ≤ c ∧ c ≤ '9' then c.toNat - '0'.toNat
    else if 'a' ≤ c ∧ c ≤ 'f' then c.toNat - 'a'.toNat + 10
    else if 'A' ≤ c ∧ c ≤ 'F' then c.toNat - 'A'.toNat + 10
    else 16
  if value < base then some value else none

/-- The digits at the start of a text and what follows them. -/
def leadingDigits (base : Nat) : List Char → List Nat × List Char
  | [] => ([], [])
  | c :: rest =>
    match digitIn? base c with
    | some d => let r := leadingDigits base rest; (d :: r.1, r.2)
    | none => ([], c :: rest)

/-- A number of one to `most` digits, all that stand there. -/
def readDigits? (base most : Nat) (text : List Char) : Option (List Nat × List Char) :=
  let r := leadingDigits base text
  if 1 ≤ r.1.length ∧ r.1.length ≤ most then some r else none

/-- A decimal byte without zeros in front. -/
def readByte? (text : List Char) : Option (UInt8 × List Char) := do
  let (digits, rest) ← readDigits? 10 3 text
  let value := digits.foldl (fun n d => n * 10 + d) 0
  if (digits.head? = some 0 ∧ digits.length ≠ 1) ∨ 255 < value then none else some (UInt8.ofNat value, rest)

def readGroup? (text : List Char) : Option (UInt16 × List Char) := do
  let (digits, rest) ← readDigits? 16 4 text
  some (UInt16.ofNat (digits.foldl (fun n d => n * 16 + d) 0), rest)

def afterChar? (c : Char) : List Char → Option (List Char)
  | [] => none
  | d :: rest => if c = d then some rest else none

def readV4? (text : List Char) : Option (List UInt8 × List Char) := do
  let (a, rest) ← readByte? text
  let (b, rest) ← readByte? (← afterChar? '.' rest)
  let (c, rest) ← readByte? (← afterChar? '.' rest)
  let (d, rest) ← readByte? (← afterChar? '.' rest)
  some ([a, b, c, d], rest)

def pair (high low : UInt8) : UInt16 :=
  (high.toUInt16 <<< 8) ||| low.toUInt16

/-- Groups as far as they go, at most `room` of them, with colons between them. Where there is room for two groups a
fourfold of bytes may end the sequence; the flag tells whether one did. -/
def readGroups : (room : Nat) → (isFirst : Bool) → List Char → List UInt16 × Bool × List Char
  | 0, _, text => ([], false, text)
  | room + 1, isFirst, text =>
    let body := if isFirst then some text else afterChar? ':' text
    match if room = 0 then none else body.bind readV4? with
    | some ([a, b, c, d], rest) => ([pair a b, pair c d], true, rest)
    | _ =>
      match body.bind readGroup? with
      | some (group, rest) => let r := readGroups room false rest; (group :: r.1, r.2)
      | none => ([], false, text)

/-- Eight groups, or fewer with two colons in place of one or more groups of zeros. -/
def readV6? (text : List Char) : Option (List UInt16 × List Char) :=
  match readGroups 8 true text with
  | (head, endsInBytes, rest) =>
    if head.length = 8 then some (head, rest)
    else if endsInBytes then none
    else do
      let rest ← afterChar? ':' (← afterChar? ':' rest)
      let (tail, _, rest) := readGroups (7 - head.length) true rest
      some (head ++ List.replicate (8 - head.length - tail.length) 0 ++ tail, rest)

def ofGroups? (groups : List UInt16) : Option IpAddress :=
  if h : groups.length = 8 then some (.v6 groups h) else none

def ofText? (text : String) : Option IpAddress :=
  match readV4? text.toList with
  | some ([a, b, c, d], rest) => if rest = [] then some (.v4 a b c d) else none
  | _ =>
    match readV6? text.toList with
    | some (groups, rest) => if rest = [] then ofGroups? groups else none
    | none => none

def zerosAt (groups : List UInt16) : Nat :=
  (groups.takeWhile (· = 0)).length

/-- The first of the longest runs of zeros: where it begins and how long it is. -/
def longestZeros (groups : List UInt16) : Nat × Nat :=
  (List.range groups.length).foldl
    (fun best i => let n := zerosAt (groups.drop i); if best.2 < n then (i, n) else best) (0, 0)

/-- Groups in lower case without zeros in front, with colons between them. -/
def groupsText (groups : List UInt16) : String :=
  ":".intercalate (groups.map fun g => Text.lowerHex 1 g.toNat)

def bytesText (a b c d : UInt8) : String :=
  s!"{a}.{b}.{c}.{d}"

/-- The low bytes of a group, high one first. -/
def halves (group : UInt16) : UInt8 × UInt8 :=
  ((group >>> 8).toUInt8, group.toUInt8)

/-- The longest run of at least two groups of zeros is left out; an address of the older family is shown as such. -/
def groupsShortened (groups : List UInt16) : String :=
  match groups with
  | [0, 0, 0, 0, 0, 0xFFFF, g, h] =>
    let ab := halves g
    let cd := halves h
    "::ffff:" ++ bytesText ab.1 ab.2 cd.1 cd.2
  | groups =>
    let (first, length) := longestZeros groups
    if length < 2 then groupsText groups
    else groupsText (groups.take first) ++ "::" ++ groupsText (groups.drop (first + length))

def toText : IpAddress → String
  | .v4 a b c d => bytesText a b c d
  | .v6 groups _ => groupsShortened groups

def isMulticast : IpAddress → Bool
  | .v4 a _ _ _ => a &&& 0xF0 = 0xE0
  | .v6 groups _ => groups.headD 0 &&& 0xFF00 = 0xFF00

def unspecifiedV4 : IpAddress := .v4 0 0 0 0

def unspecifiedV6 : IpAddress := .v6 [0, 0, 0, 0, 0, 0, 0, 0] rfl

end IpAddress

/-- An address with a port; `scope` is the number of the interface on which the address holds, or zero. -/
structure SocketAddress where
  ip : IpAddress
  port : UInt16
  scope : UInt32
  deriving DecidableEq

def SocketAddress.toText (a : SocketAddress) : String :=
  match a.ip with
  | .v4 .. => a.ip.toText ++ s!":{a.port}"
  | .v6 .. => "[" ++ a.ip.toText ++ (if a.scope = 0 then "" else s!"%{a.scope}") ++ s!"]:{a.port}"

end Onboard
