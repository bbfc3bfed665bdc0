import Onboard.Cause
import Onboard.Handoff
import Onboard.Host.Storage
import Onboard.Log
import Onboard.Power.Frame

/-!
The link to the power board. A thread exchanges frames with the board, one status for one command, while the control
loop hands over commands and takes the latest status, and a crash handler may force the board to idle at any time.
`PowerService.step` lets one of them act, so that a run over a list of actions is one interleaving. An action that is
not due changes nothing.
-/

namespace Onboard

inductive PowerError where
  | deviceMissing (device : String)
  | notOpened (device cause : String)
  | read (cause : String)
  | write (cause : String)
  deriving DecidableEq

def PowerError.message : PowerError → String
  | .deviceMissing device => "Power board device " ++ device ++ " does not exist"
  | .notOpened device cause => "Could not open power board device " ++ device ++ ": " ++ cause
  | .read cause => "Could not read a status frame from the power board: " ++ cause
  | .write cause => "Could not write a command frame to the power board: " ++ cause

instance : Cause PowerError where
  name
    | .deviceMissing _ => "DeviceMissing"
    | .notOpened .. => "OpenError"
    | .read _ => "ReadError"
    | .write _ => "WriteError"
  message := PowerError.message

/-- Where the exchanging thread stands; within an exchange it remembers whether it began under the safing flag, and
why the status frame was dropped. -/
inductive PowerThread where
  | checking
  | readingFlag
  | flushing (isForced : Bool)
  | reading (isForced : Bool)
  | publishing (isForced : Bool) (frame : Bytes)
  | loading (isForced : Bool) (dropped : Option FrameError)
  | discarding (command : PulseCommand) (dropped : Option FrameError)
  | writing (command : PulseCommand) (dropped : Option FrameError)
  | ended
  /-- The link cannot be recovered, and the whole program ends. -/
  | failed (error : PowerError)
  deriving DecidableEq

/-- Actions of the thread first, then those of the others. -/
inductive PowerAction where
  | check
  | readFlag
  | flushReceive (failure : Option String)
  | read (result : Except String Bytes)
  | publish (now : Instant)
  | load
  | flushSend (failure : Option String)
  | write (failure : Option String)
  | poll (demand : ChickerCommand) (calibration : KickCalibration)
  | makeSafe
  | requestStop
  | join

structure PowerService where
  channel : CommandChannel PulseCommand PowerStatus
  running : Bool
  isSafing : Bool
  thread : PowerThread
  isJoined : Bool
  written : List Bytes
  log : List LogLine

namespace PowerService

def started : PowerService :=
  ⟨.new .idle .initial, true, false, .checking, false, [], []⟩

def peripheralName : String := "power board"

/-- Keeps a good status and its time; a malformed one leaves the last good one. -/
def publish (s : PowerService) (isForced : Bool) (frame : Bytes) (now : Instant) : PowerService :=
  match PowerStatus.ofFrame frame with
  | .ok status => { s with channel := s.channel.publishStatus status now, thread := .loading isForced none }
  | .error e => { s with thread := .loading isForced (some e) }

def commandFor (s : PowerService) (isForced : Bool) : PulseCommand :=
  if isForced then .idle else s.channel.latestCommand

def droppedLine (e : FrameError) : LogLine :=
  .warn ("Dropped malformed power board status: " ++ e.message)

def report (dropped : Option FrameError) : List LogLine :=
  (dropped.map droppedLine).toList

def proceed (s : PowerService) (failure : Option PowerError) (next : PowerThread) : PowerService :=
  match failure with
  | none => { s with thread := next }
  | some e => { s with thread := .failed e }

def step (s : PowerService) : PowerAction → PowerService
  | .check =>
    match s.thread with
    | .checking => { s with thread := if s.running then .readingFlag else .ended }
    | _ => s
  | .readFlag =>
    match s.thread with
    | .readingFlag => { s with thread := .flushing s.isSafing }
    | _ => s
  | .flushReceive failure =>
    match s.thread with
    | .flushing isForced => s.proceed (failure.map .read) (.reading isForced)
    | _ => s
  | .read result =>
    match s.thread, result with
    | .reading isForced, .ok frame => { s with thread := .publishing isForced frame }
    | .reading _, .error cause => { s with thread := .failed (.read cause) }
    | _, _ => s
  | .publish now =>
    match s.thread with
    | .publishing isForced frame => s.publish isForced frame now
    | _ => s
  | .load =>
    match s.thread with
    | .loading isForced dropped => { s with thread := .discarding (s.commandFor isForced) dropped }
    | _ => s
  | .flushSend failure =>
    match s.thread with
    | .discarding command dropped => s.proceed (failure.map .write) (.writing command dropped)
    | _ => s
  | .write failure =>
    match s.thread, failure with
    | .writing command dropped, none =>
      { s with thread := .checking, written := s.written ++ [command.toFrame], log := s.log ++ report dropped }
    | .writing _ _, some cause => { s with thread := .failed (.write cause) }
    | _, _ => s
  | .poll demand calibration =>
    { s with channel := s.channel.publishCommand (.ofDemand calibration demand) }
  | .makeSafe => { s with isSafing := true }
  | .requestStop => { s with running := false }
  | .join =>
    match s.thread with
    | .ended => { s with isJoined := true }
    | _ => s

def run (s : PowerService) (actions : List PowerAction) : PowerService :=
  actions.foldl step s

theorem run_append (s : PowerService) (a b : List PowerAction) : s.run (a ++ b) = (s.run a).run b := by
  simp [run]

/-- What a poll gives to the control loop. -/
def latestStatus (s : PowerService) : PowerStatus := s.channel.latestStatus

def statusAge (s : PowerService) (now : Instant) : Option Duration := s.channel.statusAge now

/-- The thread's way from the end of an exchange to its wait for the board. -/
def approach : List PowerAction := [.check, .readFlag, .flushReceive none]

/-- A started service whose thread waits for the board. -/
def waiting : PowerService := started.run approach

/-- The rest of an exchange in which the board sends a frame and nothing fails. -/
def answering (frame : Bytes) (now : Instant) : List PowerAction :=
  [.read (.ok frame), .publish now, .load, .flushSend none, .write none]

/-- A whole exchange of a waiting thread, up to its next wait. -/
def exchange (s : PowerService) (frame : Bytes) (now : Instant) : PowerService :=
  s.run (answering frame now ++ approach)

/-- A stop of a waiting thread to which the board sends a frame. -/
def stop (s : PowerService) (frame : Bytes) (now : Instant) : PowerService :=
  s.run (.requestStop :: answering frame now ++ [.check, .join])

inductive Stage where
  | flushReceive
  | read
  | flushSend
  | write
  deriving DecidableEq

def Stage.all : List Stage := [.flushReceive, .read, .flushSend, .write]

def Stage.name : Stage → String
  | .flushReceive => "flush_receive"
  | .read => "read"
  | .flushSend => "flush_send"
  | .write => "write"

def Stage.error (stage : Stage) (cause : String) : PowerError :=
  match stage with
  | .flushReceive | .read => .read cause
  | .flushSend | .write => .write cause

end PowerService

inductive DeviceNode where
  | missing
  | regularFile
  | directory
  | terminal
  deriving DecidableEq

def DeviceNode.at (files : FileTree) (path : String) : DeviceNode :=
  match files.lookup path with
  | .ok (some (.file _)) => .regularFile
  | .ok (some .directory) => .directory
  | _ => .missing

def openDevice (device : String) : DeviceNode → Except PowerError Unit
  | .missing => .error (.deviceMissing device)
  | .regularFile => .error (.notOpened device "Not a typewriter")
  | .directory => .error (.notOpened device "Is a directory")
  | .terminal => .ok ()

end Onboard
