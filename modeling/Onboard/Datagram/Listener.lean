import Onboard.Wire.Basic

/-!
Listening for messages. A thread receives datagrams, all into one buffer, and hands each message on, and to the audit
log the bytes it came in; its owner may stop it at any time. Both are given as phases, and `Listener.step` lets one of
them act, so that a run over a list of actions is one interleaving. An action that is not due changes nothing.
-/

namespace Onboard

/-- What one receive yields, before it is cut to the buffer. -/
inductive Receipt where
  | datagram (bytes : Bytes)
  | silence
  | failure
  deriving DecidableEq

/-- A receive that fails with an error of some kind. Two kinds only say that nothing came before the timeout. -/
def Receipt.ofErrorKind (kind : String) : Receipt :=
  if kind = "WouldBlock" || kind = "TimedOut" then .silence else .failure

/-- What a receive reports. The bytes of a datagram are at the start of the buffer. -/
inductive ReceiveResult where
  | count (bytes : Nat)
  | silence
  | failure
  deriving DecidableEq

inductive ListenerWarning where
  /-- The datagram fills the buffer, so part of it may be missing. -/
  | fullBuffer
  | unreadable
  | receive
  | shutdown
  | close
  deriving DecidableEq

def ListenerWarning.name : ListenerWarning → String
  | .fullBuffer => "full_buffer"
  | .unreadable => "parse_error"
  | .receive => "receive_error"
  | .shutdown => "shutdown_error"
  | .close => "close_error"

inductive ListenerThread (α : Type) where
  | receiving
  /-- Received, but not yet known whether the listener still runs. -/
  | received (result : ReceiveResult)
  | handing (message : α) (count : Nat)
  | recording (count : Nat)
  | ended
  deriving DecidableEq

inductive ListenerStop where
  | idle
  | shuttingDown
  | joining
  | closing
  deriving DecidableEq

inductive Teardown where
  | shutdown
  | close
  deriving DecidableEq

def Teardown.name : Teardown → String
  | .shutdown => "shutdown"
  | .close => "close"

structure Listener (α : Type) where
  bufferSize : Nat
  /-- Never cleared between receives. -/
  buffer : Bytes
  audits : Bool
  running : Bool
  thread : ListenerThread α
  stopping : ListenerStop
  messages : List α
  recorded : List Bytes
  warnings : List ListenerWarning
  teardown : List Teardown

inductive ListenerAction where
  | receive (receipt : Receipt)
  | check
  | hand
  | record
  | beginStop
  | shutdown (fails : Bool)
  | join
  | close (fails : Bool)
  deriving DecidableEq

namespace Listener

variable {α : Type}

/-- A listener with an open endpoint; a buffer holds at least one byte. -/
def opened (bufferSize : Nat) (audits : Bool) : Listener α :=
  ⟨max bufferSize 1, List.replicate (max bufferSize 1) 0, audits, true, .receiving, .idle, [], [], [], []⟩

def warn (l : Listener α) (w : ListenerWarning) : Listener α :=
  { l with warnings := l.warnings ++ [w] }

/-- A datagram overwrites the start of the buffer, as far as there is room. The bytes behind it stay. -/
def receive (l : Listener α) : Receipt → Listener α
  | .datagram bytes =>
    let count := min bytes.length l.bufferSize
    { l with buffer := bytes.take l.bufferSize ++ l.buffer.drop count, thread := .received (.count count) }
  | .silence => { l with thread := .received .silence }
  | .failure => { l with thread := .received .failure }

/-- Reads the datagram in the first bytes of the buffer; what cannot be read is only warned of. -/
def read [Wire α] (l : Listener α) (count : Nat) : Listener α :=
  let l := if l.bufferSize ≤ count then l.warn .fullBuffer else l
  match (Wire.read? (l.buffer.take count) : Option α) with
  | some message => { l with thread := .handing message count }
  | none => { l.warn .unreadable with thread := .receiving }

/-- Deals with what was received, unless the listener was stopped in the meantime. -/
def handle [Wire α] (l : Listener α) (result : ReceiveResult) : Listener α :=
  if l.running then
    match result with
    | .count bytes => l.read bytes
    | .silence => { l with thread := .receiving }
    | .failure => { l.warn .receive with thread := .receiving }
  else { l with thread := .ended }

def step [Wire α] (l : Listener α) : ListenerAction → Listener α
  | .receive receipt =>
    match l.thread with
    | .receiving => l.receive receipt
    | _ => l
  | .check =>
    match l.thread with
    | .received result => l.handle result
    | _ => l
  | .hand =>
    match l.thread with
    | .handing message count => { l with thread := .recording count, messages := l.messages ++ [message] }
    | _ => l
  | .record =>
    match l.thread with
    | .recording count =>
      { l with thread := .receiving, recorded := l.recorded ++ if l.audits then [l.buffer.take count] else [] }
    | _ => l
  | .beginStop =>
    match l.stopping with
    | .idle => if l.running then { l with running := false, stopping := .shuttingDown } else l
    | _ => l
  | .shutdown fails =>
    match l.stopping with
    | .shuttingDown =>
      { (if fails then l.warn .shutdown else l) with stopping := .joining, teardown := l.teardown ++ [.shutdown] }
    | _ => l
  | .join =>
    match l.stopping, l.thread with
    | .joining, .ended => { l with stopping := .closing }
    | _, _ => l
  | .close fails =>
    match l.stopping with
    | .closing =>
      { (if fails then l.warn .close else l) with stopping := .idle, teardown := l.teardown ++ [.close] }
    | _ => l

def run [Wire α] (l : Listener α) (actions : List ListenerAction) : Listener α :=
  actions.foldl step l

theorem run_append [Wire α] (l : Listener α) (a b : List ListenerAction) : l.run (a ++ b) = (l.run a).run b := by
  simp [run]

def handling (receipt : Receipt) : List ListenerAction :=
  [.receive receipt, .check, .hand, .record]

/-- A stop while the thread waits, from its begin to its return. -/
def stopActions (shutdownFails closeFails : Bool) : List ListenerAction :=
  [.beginStop, .shutdown shutdownFails, .receive .silence, .check, .join, .close closeFails]

/-- The listener once its thread has nothing left to do about a receipt. -/
def feed [Wire α] (l : Listener α) (receipt : Receipt) : Listener α :=
  l.run (handling receipt)

def stop [Wire α] (l : Listener α) (shutdownFails closeFails : Bool) : Listener α :=
  l.run (stopActions shutdownFails closeFails)

end Listener

end Onboard
