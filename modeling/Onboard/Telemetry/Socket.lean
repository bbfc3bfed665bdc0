import Onboard.Cause
import Onboard.Telemetry.Endpoint

/-!
Sockets that publish to any number of peers. What can be wrong with a socket is found out in a fixed order: its
options, its endpoint, and last whether a peer comes in time.
-/

namespace Onboard

/-- Times are in milliseconds; minus one means without end. -/
structure SocketOptions where
  use : Endpoint.Use
  /-- Whether to wait for a first peer, for at most the time of connecting if that is not zero. -/
  waitsForPeer : Bool
  connectTimeout : Int
  linger : Int
  sendTimeout : Int
  /-- How many messages are kept for one peer. -/
  sendLimit : Int
  deriving DecidableEq

inductive PublisherError where
  | endpoint (endpoint : String) (cause : SocketFailure)
  | noPeer (endpoint : String)
  | option (name : String) (cause : SocketFailure)
  deriving DecidableEq

def PublisherError.message : PublisherError → String
  | .endpoint place cause => "Could not bind or connect to " ++ place ++ ": " ++ cause.message
  | .noPeer place => "No peer connected to " ++ place ++ " within the connect timeout"
  | .option name cause => "Could not set the " ++ name ++ " socket option: " ++ cause.message

instance : Cause PublisherError where
  name
    | .endpoint .. => "EndpointError"
    | .noPeer _ => "NoPeer"
    | .option .. => "SocketOptionError"
  message := PublisherError.message

namespace SocketOptions

def checkOption (name : String) (least value : Int) : Except PublisherError Unit :=
  if least ≤ value then .ok () else .error (.option name .invalidArgument)

def check (o : SocketOptions) : Except PublisherError Unit := do
  checkOption "connect_timeout" 0 o.connectTimeout
  checkOption "linger" (-1) o.linger
  checkOption "sndtimeo" (-1) o.sendTimeout
  checkOption "sndhwm" 0 o.sendLimit

/-- With these a server publishes without ever waiting. -/
def forTelemetry : SocketOptions := ⟨.binding, false, 0, 1, 0, 10⟩

end SocketOptions

namespace PublisherSocket

/-- Makes a socket while so many peers come in time. -/
def make (computer : NetworkHost) (files : FileTree) (o : SocketOptions) (endpoint : String) (peersInTime : Nat) :
    Except PublisherError Unit := do
  o.check
  match Endpoint.failure? computer files o.use endpoint with
  | some cause => .error (.endpoint endpoint cause)
  | none => if o.waitsForPeer ∧ peersInTime = 0 then .error (.noPeer endpoint) else .ok ()

def serverMessage (e : PublisherError) : String :=
  "Socket error: " ++ e.message

end PublisherSocket

end Onboard
