import Onboard.Cause
import Onboard.Datagram.Host
import Onboard.Text.Quoted

/-!
Senders of datagrams. A sender has one destination; an address that holds on one link only needs the interface by
name.
-/

namespace Onboard

inductive DatagramError where
  | invalidAddress (text : String)
  | unknownInterface (name : String)
  | notSent (cause : IoFailure)
  deriving DecidableEq

def DatagramError.message : DatagramError → String
  | .invalidAddress text => Text.quoted text ++ " is not a valid IP address"
  | .unknownInterface name => "Network interface " ++ Text.quoted name ++ " does not exist"
  | .notSent cause => "Could not send the datagram: " ++ cause.message

instance : Cause DatagramError where
  name
    | .invalidAddress _ => "InvalidAddress"
    | .unknownInterface _ => "UnknownInterface"
    | .notSent _ => "SendError"
  message := DatagramError.message

def DatagramError.structured : DatagramError → String
  | .invalidAddress text => "InvalidAddress(" ++ Text.quoted text ++ ")"
  | .unknownInterface name => "UnknownInterface(" ++ Text.quoted name ++ ")"
  | .notSent cause => "SendError(" ++ cause.structured ++ ")"

def readAddress (text : String) : Except DatagramError IpAddress :=
  match IpAddress.ofText? text with
  | some ip => .ok ip
  | none => .error (.invalidAddress text)

/-- The number of an interface that is named, or zero. -/
def NetworkHost.scopeOf (host : NetworkHost) (interfaceName : Option String) : Except DatagramError UInt32 :=
  match interfaceName with
  | none => .ok 0
  | some name =>
    match host.interfaceIndex name with
    | some index => .ok index
    | none => .error (.unknownInterface name)

structure DatagramSender where
  destination : SocketAddress
  deriving DecidableEq

namespace DatagramSender

/-- A sender to an address given as text. The older family needs no interface, and none is looked up. -/
def towards (host : NetworkHost) (address : String) (port : UInt16) (interfaceName : Option String) :
    Except DatagramError DatagramSender := do
  let ip ← readAddress address
  match ip with
  | .v4 .. => return ⟨⟨ip, port, 0⟩⟩
  | .v6 .. => return ⟨⟨ip, port, ← host.scopeOf interfaceName⟩⟩

def send (s : DatagramSender) (host : NetworkHost) (datagram : List UInt8) : Except DatagramError Unit :=
  match host.send s.destination datagram.length with
  | none => .ok ()
  | some cause => .error (.notSent cause)

/-- Sends an empty datagram to see whether any can be sent. -/
def probe (host : NetworkHost) (address : String) (port : UInt16) (interfaceName : Option String) :
    Except DatagramError Unit := do
  (← towards host address port interfaceName).send host []

end DatagramSender

end Onboard
