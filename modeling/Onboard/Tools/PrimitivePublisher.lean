import Onboard.Datagram.Sender
import Onboard.Network.Channel
import Onboard.Number.Layout
import Onboard.Robot.Primitive
import Onboard.Tools.Ending

/-!
A tool that drives one robot by sending it primitive sets at a fixed rate, to a channel's group or to a local socket.
-/

namespace Onboard

structure PrimitivePublisher where
  robotId : UInt32
  channel : Nat
  port : UInt16
  interfaceName : Option String
  /-- A local socket to send to instead of the channel. -/
  localPath : Option String
  rate : Float
  speed : Float
  /-- The speed of a kick once a second. -/
  kick : Option Float
  deriving DecidableEq

namespace PrimitivePublisher

def robotOption : OptionSpec := ⟨"robot-id", some 'r', .value (.whole 0xFFFFFFFF) (some "0")⟩
def channelOption : OptionSpec := ⟨"channel", some 'c', .value (.whole 0xFFFFFFFFFFFFFFFF) (some "0")⟩
def portOption : OptionSpec := ⟨"port", some 'p', .value (.whole 0xFFFF) (some "42070")⟩
def interfaceOption : OptionSpec := ⟨"interface", some 'i', .value .text none⟩
def localOption : OptionSpec := ⟨"unix", none, .value .text none⟩
def rateOption : OptionSpec := ⟨"rate", none, .value .number (some "60")⟩
def speedOption : OptionSpec := ⟨"speed", none, .value .number (some "0")⟩
def kickOption : OptionSpec := ⟨"kick", none, .value .number none⟩

def options : List OptionSpec :=
  [robotOption, channelOption, portOption, interfaceOption, localOption, rateOption, speedOption, kickOption]

def ofOptions (given : List Occurrence) : PrimitivePublisher where
  robotId := UInt32.ofNat (Arguments.whole given robotOption)
  channel := Arguments.whole given channelOption
  port := UInt16.ofNat (Arguments.whole given portOption)
  interfaceName := Arguments.value? given interfaceOption
  localPath := Arguments.value? given localOption
  rate := (Arguments.number? given rateOption).getD 0.0
  speed := (Arguments.number? given speedOption).getD 0.0
  kick := Arguments.number? given kickOption

inductive Destination where
  | localSocket (path : String)
  | group (sender : DatagramSender)
  deriving DecidableEq

inductive Refusal where
  | rate (found : Float)
  | channel (found : Nat)
  | sender (cause : DatagramError)
  deriving DecidableEq

def Refusal.ending : Refusal → ToolEnding
  | .rate found => .failed (Text.quoted ("Invalid rate " ++ Layout.plain.write found))
  | .channel found => .failed (Text.quoted (Channel.unknownMessage found))
  | .sender cause => .failed cause.structured

/-- The rate is looked at first. A local socket needs no channel. -/
def destination (p : PrimitivePublisher) (host : NetworkHost) : Except Refusal Destination :=
  if !(0.0 < p.rate) then .error (.rate p.rate)
  else
    match p.localPath with
    | some path => .ok (.localSocket path)
    | none =>
      match Channel.group? p.channel with
      | none => .error (.channel p.channel)
      | some group =>
        match DatagramSender.towards host group p.port p.interfaceName with
        | .ok sender => .ok (.group sender)
        | .error cause => .error (.sender cause)

def start (host : NetworkHost) (arguments : List String) : Except ToolEnding (PrimitivePublisher × Destination) := do
  let p := ofOptions (← ToolEnding.options options arguments)
  match p.destination host with
  | .ok d => return (p, d)
  | .error refusal => .error refusal.ending

/-- Sets between two kicks: about as many as are sent in a second, at least one. -/
def kickPeriod (rate : Float) : UInt64 :=
  max 1 (Double.round rate).toUInt64

def acceleration : Float := 3.0

/-- The robot kicks with the first set of each period. -/
def chicker (p : PrimitivePublisher) (sequence : UInt64) : ChickerCommand :=
  match p.kick with
  | some speed => if sequence % kickPeriod p.rate = 0 then .kick speed else .idle
  | none => .idle

/-- Without speed and kick the robot is told to stop. -/
def primitive (p : PrimitivePublisher) (sequence : UInt64) : Primitive :=
  if p.speed == 0.0 && p.kick.isNone then .stop
  else .move ⟨p.speed, 0.0, 0.0⟩ acceleration 0.0 (p.chicker sequence)

/-- The set with a sequence number, sent at a time in seconds since the epoch. -/
def set (p : PrimitivePublisher) (sequence : UInt64) (time : Float) : PrimitiveSet :=
  ⟨sequence, time, RobotMap.ofList [(p.robotId, p.primitive sequence)]⟩

end PrimitivePublisher

end Onboard
