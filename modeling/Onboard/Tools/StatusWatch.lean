import Onboard.Datagram.Endpoint
import Onboard.Network.Channel
import Onboard.Tools.Ending

/-!
A tool that listens on a channel for statuses and crash reports, up to its first socket.
-/

namespace Onboard

structure StatusWatch where
  channel : Nat
  statusPort : UInt16
  crashPort : UInt16
  interfaceName : Option String
  deriving DecidableEq

namespace StatusWatch

def channelOption : OptionSpec := ⟨"channel", some 'c', .value (.whole 0xFFFFFFFFFFFFFFFF) (some "0")⟩
def portOption : OptionSpec := ⟨"port", some 'p', .value (.whole 0xFFFF) (some "42071")⟩
def crashPortOption : OptionSpec := ⟨"crash-port", none, .value (.whole 0xFFFF) (some "42074")⟩
def interfaceOption : OptionSpec := ⟨"interface", some 'i', .value .text none⟩
def quietOption : OptionSpec := ⟨"quiet", some 'q', .switch⟩

def options : List OptionSpec := [channelOption, portOption, crashPortOption, interfaceOption, quietOption]

def ofOptions (given : List Occurrence) : StatusWatch where
  channel := Arguments.whole given channelOption
  statusPort := UInt16.ofNat (Arguments.whole given portOption)
  crashPort := UInt16.ofNat (Arguments.whole given crashPortOption)
  interfaceName := Arguments.value? given interfaceOption

inductive Refusal where
  | channel (found : Nat)
  | endpoint (cause : EndpointError)
  deriving DecidableEq

def Refusal.ending : Refusal → ToolEnding
  | .channel found => .failed (Text.quoted (Channel.unknownMessage found))
  | .endpoint cause => .failed cause.structured

def listeningLine (w : StatusWatch) (group : String) : String :=
  "Listening on " ++ group ++ s!" ports {w.statusPort} and {w.crashPort}"

/-- Binds the ports for statuses and for crash reports. -/
def listen (w : StatusWatch) (host : NetworkHost) : Except Refusal String :=
  match Channel.group? w.channel with
  | none => .error (.channel w.channel)
  | some group =>
    match PortEndpoint.bind host group w.statusPort w.interfaceName with
    | .error cause => .error (.endpoint cause)
    | .ok _ =>
      match PortEndpoint.bind host group w.crashPort w.interfaceName with
      | .error cause => .error (.endpoint cause)
      | .ok _ => .ok (w.listeningLine group)

def start (host : NetworkHost) (arguments : List String) : Except ToolEnding (StatusWatch × String) := do
  let w := ofOptions (← ToolEnding.options options arguments)
  match w.listen host with
  | .ok line => return (w, line)
  | .error refusal => .error refusal.ending

end StatusWatch

end Onboard
