import Onboard.Log
import Onboard.Text.Blank
import Onboard.Wire.Status

/-!
Telemetry for spectators. Every cycle's status is published as a packet under one topic; a spectator reads packets
back from the messages it receives.
-/

namespace Onboard.Telemetry

def topic : String := "robot_tm"

def messageOf (packet : TelemetryPacket) : Bytes :=
  Utf8.encode (topic ++ " ") ++ Wire.write packet

/-- What follows a text's beginning, if it has this beginning. -/
def afterStart? (start text : List Char) : Option (List Char) :=
  if start.isPrefixOf text then some (text.drop start.length) else none

/-- What follows the topic of a message, without the blanks that separate them. -/
def body? (message : String) : Option Bytes :=
  (afterStart? topic.toList message.toList).map fun body => Utf8.encode (String.ofList (Text.trimStart body))

def ofMessage? (message : String) : Option TelemetryPacket :=
  (body? message).bind Wire.read?

/-- Sends that failed since the last one that did not. -/
structure Publisher where
  failures : Nat
  deriving DecidableEq

def Publisher.initial : Publisher := ⟨0⟩

/-- The publisher after a send that went well or failed for a cause; only the first failure of a run is told. -/
def Publisher.after (p : Publisher) (cause : Option String) : Publisher × List LogLine :=
  match cause with
  | none => (⟨0⟩, [])
  | some cause =>
    (⟨p.failures + 1⟩,
      if p.failures = 0 then [.warn ("Could not publish telemetry: Could not send telemetry: " ++ cause)] else [])

end Onboard.Telemetry
