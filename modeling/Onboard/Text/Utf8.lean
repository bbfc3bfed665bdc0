/-!
UTF-8 between text and bytes. `decode?` refuses what is no UTF-8; `decodeLossy` puts a replacement character for
each longest run of bytes that begins a character and does not finish one.
-/

namespace Onboard

abbrev Bytes := List UInt8

namespace Utf8

def encode (s : String) : Bytes :=
  s.toUTF8.data.toList

def decode? (bytes : Bytes) : Option String :=
  String.fromUTF8? ⟨bytes.toArray⟩

theorem decode?_encode (s : String) : decode? (encode s) = some s := by
  simp [decode?, encode, String.fromUTF8?, String.fromUTF8, s.isValidUTF8]

/-- A character some of whose bytes are read: how many are owed, what the next one may be, and the value so far. -/
structure Pending where
  owed : Nat
  low : Nat
  high : Nat
  value : Nat
  deriving DecidableEq, Repr

inductive Start where
  | whole (c : Char)
  | more (p : Pending)
  | refused

/-- What a byte between characters begins. -/
def start (b : Nat) : Start :=
  if b < 0x80 then .whole (Char.ofNat b)
  else if b < 0xC2 then .refused
  else if b < 0xE0 then .more ⟨1, 0x80, 0xBF, b % 32⟩
  else if b = 0xE0 then .more ⟨2, 0xA0, 0xBF, 0⟩
  else if b = 0xED then .more ⟨2, 0x80, 0x9F, 13⟩
  else if b < 0xF0 then .more ⟨2, 0x80, 0xBF, b % 16⟩
  else if b = 0xF0 then .more ⟨3, 0x90, 0xBF, 0⟩
  else if b < 0xF4 then .more ⟨3, 0x80, 0xBF, b % 8⟩
  else if b = 0xF4 then .more ⟨3, 0x80, 0x8F, 4⟩
  else .refused

def replacement : Char := '\uFFFD'

/-- The characters completed by one byte, and what is pending after it. A byte that does not continue the pending
character ends it and is looked at again. -/
def step (pending : Option Pending) (b : Nat) : List Char × Option Pending :=
  let fresh (done : List Char) : List Char × Option Pending :=
    match start b with
    | .whole c => (done ++ [c], none)
    | .more p => (done, some p)
    | .refused => (done ++ [replacement], none)
  match pending with
  | none => fresh []
  | some p =>
    if p.low ≤ b ∧ b ≤ p.high then
      let value := p.value * 64 + b % 64
      if p.owed ≤ 1 then ([Char.ofNat value], none) else ([], some ⟨p.owed - 1, 0x80, 0xBF, value⟩)
    else fresh [replacement]

def lossyFrom (pending : Option Pending) : Bytes → List Char
  | [] => if pending.isSome then [replacement] else []
  | b :: rest => let s := step pending b.toNat; s.1 ++ lossyFrom s.2 rest

def decodeLossy (bytes : Bytes) : List Char :=
  lossyFrom none bytes

end Utf8

end Onboard
