import Onboard.Cause
import Onboard.Datagram.Endpoint
import Onboard.Datagram.Listener
import Onboard.Log
import Onboard.Network.Channel
import Onboard.Network.LossWindow
import Onboard.Network.RoundTrips
import Onboard.Network.StatusLimiter
import Onboard.Settings.Basic
import Onboard.Wire.Control
import Onboard.Wire.Status

/-!
The robot's network. Primitive sets arrive from any number of sources, each of which keeps the newest set it has
brought; a poll takes the newest of all, notes when it came, and sends the loop's status if one is due.
-/

namespace Onboard

structure InboundSet where
  set : PrimitiveSet
  receivedAt : Instant
  /-- Seconds since the epoch. -/
  receivedTime : Float
  /-- The loss on its source when it came. -/
  lossPercentage : Float
  deriving DecidableEq

/-- One source: what its listener counts, and the cell in which it leaves its newest set. -/
structure PrimitiveSource where
  window : LossWindow
  newestTime : Option Float
  slot : Option InboundSet
  /-- The fault that ended the listener's thread. -/
  fault : Option Fault
  deriving DecidableEq

namespace PrimitiveSource

def silent : PrimitiveSource := ⟨.standard, none, none, none⟩

/-- Every set is counted; it is kept if it was sent later than all that this source has brought. -/
def deliver (s : PrimitiveSource) (set : PrimitiveSet) (now : Instant) (time : Float) : PrimitiveSource :=
  if s.fault.isSome then s
  else
    let window := s.window.record set.sequence
    let isNewer := match s.newestTime with
      | some newest => decide (newest < set.timeSent)
      | none => true
    if isNewer then
      match window.percentage with
      | .ok loss => ⟨window, some set.timeSent, some ⟨set, now, time, loss⟩, none⟩
      | .error fault => { s with window := window, newestTime := some set.timeSent, fault := some fault }
    else { s with window := window }

end PrimitiveSource

inductive NetworkError where
  | unknownChannel (channel : UInt64)
  | sender (cause : DatagramError)
  | listener (cause : EndpointError)
  deriving DecidableEq

def NetworkError.message : NetworkError → String
  | .unknownChannel channel => Channel.unknownMessage channel.toNat
  | .sender cause => "Could not create the status sender: " ++ cause.message
  | .listener cause => "Could not start the primitive listener: " ++ cause.message

instance : Cause NetworkError where
  name
    | .unknownChannel _ => "UnknownChannel"
    | .sender _ => "SenderError"
    | .listener _ => "ListenerError"
  message := NetworkError.message

structure NetworkService where
  sources : List PrimitiveSource
  /-- The set that the last poll gave out. -/
  latest : Option InboundSet
  trips : RoundTrips
  limiter : StatusLimiter
  deriving DecidableEq

structure NetworkPoll where
  service : NetworkService
  /-- The status as it was sent, or as it is kept for later. -/
  status : RobotStatus
  inbound : Option InboundSet
  isDue : Bool
  log : List LogLine

namespace NetworkService

def onSources (sources : Nat) (settings : LoopSettings) : Except Fault NetworkService := do
  let trips ← RoundTrips.forRates settings.primitiveHz settings.statusHz
  return ⟨List.replicate sources .silent, none, trips, .new settings.loopHz settings.statusHz⟩

def deliver (s : NetworkService) (source : Nat) (set : PrimitiveSet) (now : Instant) (time : Float) :
    NetworkService :=
  { s with sources := s.sources.modify source fun x => x.deliver set now time }

/-- Of two sets the later one sent; the first of equal ones. -/
def newer (best candidate : Option InboundSet) : Option InboundSet :=
  match best, candidate with
  | _, none => best
  | none, some c => some c
  | some b, some c => if c.set.isNewerThan b.set then some c else some b

/-- The newest set of all sources, the first source's of equal ones. -/
def newest (s : NetworkService) : Option InboundSet :=
  (s.sources.map PrimitiveSource.slot).foldl newer none

def fresh (s : NetworkService) : Option InboundSet :=
  match s.newest, s.latest with
  | some inbound, some latest => if inbound.set.isNewerThan latest.set then some inbound else none
  | some inbound, none => some inbound
  | none, _ => none

def recordOf (inbound : InboundSet) : RoundTripRecord :=
  ⟨inbound.set.sequence, inbound.set.timeSent, inbound.receivedTime⟩

/-- Takes the newest set over and notes its way here. -/
def take (s : NetworkService) : NetworkService :=
  match s.fresh with
  | some inbound => { s with latest := some inbound, trips := s.trips.record (recordOf inbound) }
  | none => s

def withLoss (status : RobotStatus) (latest : Option InboundSet) : RobotStatus :=
  match latest with
  | some inbound => { status with network := { status.network with lossPercentage := inbound.lossPercentage } }
  | none => status

def withRoundTrip (status : RobotStatus) (trip : Option RoundTrip) : RobotStatus :=
  { status with network := { status.network with roundTrip := trip } }

def failedLine (cause : DatagramError) : LogLine :=
  .warn ("Could not send robot status: " ++ cause.message)

/-- Takes the newest set and sends the status if it is due, at a time in seconds since the epoch. The limiter and the
round trips are settled before the status is sent. -/
def poll (s : NetworkService) (status : RobotStatus) (time : Float)
    (send : RobotStatus → Except DatagramError Unit) : NetworkPoll :=
  let s := s.take
  let status := withLoss status s.latest
  match s.limiter.shouldSend status with
  | (true, limiter) =>
    let resolved := s.trips.resolve status.lastHandled time
    let status := withRoundTrip { status with timeSent := time } resolved.1
    let log := match send status with
      | .ok () => []
      | .error cause => [failedLine cause]
    ⟨{ s with limiter := limiter, trips := resolved.2 }, status, s.latest, true, log⟩
  | (false, limiter) => ⟨{ s with limiter := limiter }, withRoundTrip status none, s.latest, false, []⟩

def polls (s : NetworkService) (status : RobotStatus) (time : Float)
    (send : RobotStatus → Except DatagramError Unit) : Nat → List NetworkPoll
  | 0 => []
  | n + 1 => let p := s.poll status time send; p :: polls p.service p.status time send n

def sendWith (sender : DatagramSender) (host : NetworkHost) (status : RobotStatus) : Except DatagramError Unit :=
  sender.send host (Wire.write status)

structure Front where
  listeners : List (Listener PrimitiveSet)
  service : NetworkService

def front (s : NetworkService) (bufferSize : Nat) (audits : Bool) : Front :=
  ⟨s.sources.map fun _ => .opened bufferSize audits, s⟩

/-- A receipt at one source. The sets that its listener hands on are delivered; a fault in that ends the thread before
it records the datagram. -/
def Front.receive (f : Front) (source : Nat) (receipt : Receipt) (now : Instant) (time : Float) : Front :=
  match f.listeners[source]? with
  | none => f
  | some l =>
    let handed := l.run [.receive receipt, .check, .hand]
    let service := (handed.messages.drop l.messages.length).foldl (fun s set => s.deliver source set now time) f.service
    let faulty := service.sources[source]?.any fun x => x.fault.isSome
    ⟨f.listeners.set source (if faulty then { handed with thread := .ended } else handed.step .record), service⟩

def Front.polls (f : Front) (status : RobotStatus) (time : Float)
    (send : RobotStatus → Except DatagramError Unit) (count : Nat) : List NetworkPoll × Front :=
  let polls := f.service.polls status time send count
  (polls, { f with service := (polls.getLast?.map NetworkPoll.service).getD f.service })

def Front.stop (f : Front) : Front :=
  { f with listeners := f.listeners.map fun l => l.stop false false }

structure Endpoints where
  sender : DatagramSender
  group : PortEndpoint
  localSocket : Option LocalEndpoint

/-- Sends to the robot's channel and listens there, and on the local socket if one is named. -/
def openEndpoints (robot : RobotSettings) (network : NetworkSettings) (host : NetworkHost) (files : FileTree) :
    Except NetworkError (Endpoints × FileTree) := do
  let group ← match Channel.group? robot.channel.toNat with
    | some group => .ok group
    | none => .error (.unknownChannel robot.channel)
  let interfaceName := some robot.networkInterface
  let sender ← (DatagramSender.towards host group network.statusPort interfaceName).mapError .sender
  let port ← (PortEndpoint.bind host group network.primitivePort interfaceName).mapError .listener
  match network.localPrimitivePath with
  | none => return (⟨sender, port, none⟩, files)
  | some path =>
    let (socket, files) ← (LocalEndpoint.bind files path).mapError .listener
    return (⟨sender, port, some socket⟩, files)

def openedLine (e : Endpoints) : LogLine :=
  let sources := if e.localSocket.isSome then 2 else 1
  .info ("Network service sending statuses to " ++ e.sender.destination.toText
    ++ s!", listening for primitives on {sources} source(s)")

end NetworkService

end Onboard
