import Onboard.Datagram.Address
import Onboard.Host.Storage

/-!
What the robot's computer answers when sockets are made and used. Services take a `NetworkHost`, so that what they do
can be told for any computer.
-/

namespace Onboard

/-- The answers of a computer's network; a missing failure is a success. -/
structure NetworkHost where
  /-- The number of an interface, from one on. -/
  interfaceIndex : String → Option UInt32
  bind : IpAddress → Option IoFailure
  /-- Joining a group on an interface; number zero leaves the choice to the computer. -/
  join : IpAddress → UInt32 → Option IoFailure
  send : SocketAddress → Nat → Option IoFailure

namespace NetworkHost

/-- The older family counts the bytes of a datagram in sixteen bits. More are refused before a way is looked for. -/
def lengthLimit : Nat := 0xFFFF

def failsIf (condition : Bool) (failure : IoFailure) : Option IoFailure :=
  if condition then some failure else none

def isMapped : List UInt16 → Bool
  | [0, 0, 0, 0, 0, 0xFFFF, _, _] => true
  | _ => false

def isLinkLocal (groups : List UInt16) : Bool :=
  groups.headD 0 &&& 0xFFC0 = 0xFE80

/-- A computer without links: its only interface is the loopback, and that one is down. Addresses of the older family
can still be bound, but nothing can be sent. -/
def isolated : NetworkHost where
  interfaceIndex name := if name = "lo" then some 1 else none
  bind
    | .v4 .. => none
    | .v6 groups _ =>
      if groups.all (· = 0) || isMapped groups then none
      else if isLinkLocal groups then some .invalidArgument
      else some .addressNotAvailable
  join
    | .v4 .., _ => some .noSuchDevice
    | .v6 .., index => failsIf (index ≠ 1) .noSuchDevice
  send destination length :=
    match destination.ip with
    | .v4 .. => some (if lengthLimit < length then .messageTooLong else .networkUnreachable)
    | .v6 .. => some .addressNotAvailable

end NetworkHost

end Onboard
