import Onboard.Cause
import Onboard.Datagram.Sender

/-!
Places where a listener can receive: a socket at a path of this computer, or a port of one of its addresses, which
may have joined a group.
-/

namespace Onboard

inductive EndpointError where
  | bind (place : String) (cause : IoFailure)
  | configure (cause : IoFailure)
  | address (cause : DatagramError)
  deriving DecidableEq

def EndpointError.message : EndpointError → String
  | .bind place cause => "Could not bind to " ++ place ++ ": " ++ cause.message
  | .configure cause => "Could not configure the socket: " ++ cause.message
  | .address cause => "Address error: " ++ cause.message

instance : Cause EndpointError where
  name
    | .bind .. => "BindError"
    | .configure _ => "SocketOptionError"
    | .address _ => "AddressError"
  message := EndpointError.message

def EndpointError.structured : EndpointError → String
  | .bind place cause => "BindError(" ++ Text.quoted place ++ ", " ++ cause.structured ++ ")"
  | .configure cause => "SocketOptionError(" ++ cause.structured ++ ")"
  | .address cause => "AddressError(" ++ cause.structured ++ ")"

/-- A failure that is there becomes an error. -/
def failWith {ε : Type} (failure : Option IoFailure) (error : IoFailure → ε) : Except ε Unit :=
  match failure with
  | none => .ok ()
  | some cause => .error (error cause)

structure LocalEndpoint where
  path : String
  deriving DecidableEq

namespace LocalEndpoint

/-- Paths of sockets are shorter than this many bytes. -/
def pathLimit : Nat := 108

/-- Removes what an earlier program left at the path, then makes the socket. -/
def bindIn (t : FileTree) (path : String) : Except IoFailure FileTree := do
  let t ← match t.remove path with
    | .ok t => .ok t
    | .error .notFound => .ok t
    | .error cause => .error cause
  if pathLimit ≤ path.utf8ByteSize then .error (.invalidInput "path must be shorter than SUN_LEN")
  else t.makeSocket path

def bind (t : FileTree) (path : String) : Except EndpointError (LocalEndpoint × FileTree) :=
  match bindIn t path with
  | .ok t => .ok (⟨path⟩, t)
  | .error cause => .error (.bind (Text.quoted path) cause)

/-- Closing removes the socket from its path. -/
def close (e : LocalEndpoint) (t : FileTree) : Except IoFailure FileTree :=
  t.remove e.path

end LocalEndpoint

/-- A port, and the group that was joined on it with the interface's number. -/
structure PortEndpoint where
  bound : SocketAddress
  group : Option (IpAddress × UInt32)
  deriving DecidableEq

namespace PortEndpoint

/-- The address to bind and the group to join. A group is joined on a port of all addresses; the older family leaves
the choice of the interface to the computer. -/
def plan (host : NetworkHost) (ip : IpAddress) (interfaceName : Option String) :
    Except DatagramError (IpAddress × Option (IpAddress × UInt32)) :=
  if ip.isMulticast then
    match ip with
    | .v4 .. => .ok (.unspecifiedV4, some (ip, 0))
    | .v6 .. => (host.scopeOf interfaceName).map fun index => (.unspecifiedV6, some (ip, index))
  else .ok (ip, none)

def bind (host : NetworkHost) (address : String) (port : UInt16) (interfaceName : Option String) :
    Except EndpointError PortEndpoint := do
  let ip ← (readAddress address).mapError .address
  let (bound, group) ← (plan host ip interfaceName).mapError .address
  let place : SocketAddress := ⟨bound, port, 0⟩
  failWith (host.bind bound) (.bind place.toText)
  match group with
  | some (ip, index) => failWith (host.join ip index) .configure
  | none => pure ()
  return ⟨place, group⟩

end PortEndpoint

end Onboard
