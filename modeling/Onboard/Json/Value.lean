import Onboard.Text.Utf8

/-!
JSON values as they stand on the wire. Numbers keep their literal and strings what is written between their quotes,
so that a reader may skip a value without settling what its literals mean.
-/

namespace Onboard

inductive Json where
  | null
  | bool (value : Bool)
  | number (literal : Bytes)
  | string (content : Bytes)
  | array (items : List Json)
  | object (members : List (Bytes × Json))

namespace Json

instance : Inhabited Json := ⟨.null⟩

/-- The member of an object under a key; of equal keys the first one. -/
def member? (j : Json) (key : String) : Option Json :=
  match j with
  | .object members => members.lookup (Utf8.encode key)
  | _ => none

def items : Json → List Json
  | .array items => items
  | _ => []

def isNull : Json → Bool
  | .null => true
  | _ => false

def ascii (s : String) : Bytes :=
  s.toList.map fun c => UInt8.ofNat c.toNat

mutual

def print : Json → Bytes
  | .null => ascii "null"
  | .bool true => ascii "true"
  | .bool false => ascii "false"
  | .number literal => literal
  | .string content => 0x22 :: content ++ [0x22]
  | .array items => 0x5B :: printItems items ++ [0x5D]
  | .object members => 0x7B :: printMembers members ++ [0x7D]

def printItems : List Json → Bytes
  | [] => []
  | [item] => print item
  | item :: rest => print item ++ 0x2C :: printItems rest

def printMember : Bytes × Json → Bytes
  | (key, value) => 0x22 :: key ++ 0x22 :: 0x3A :: print value

def printMembers : List (Bytes × Json) → Bytes
  | [] => []
  | [member] => printMember member
  | member :: rest => printMember member ++ 0x2C :: printMembers rest

end

end Json

end Onboard
