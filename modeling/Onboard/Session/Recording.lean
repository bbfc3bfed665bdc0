import Onboard.Session.Audit

/-!
An audit log while it is in use. Sinks, which may be cloned and dropped at any time, queue records; a writer takes the
records from the queue and ends when no sink is left that could queue another, and who asked for the log's end waits
for that. `Recording.step` lets one of them act, so that a run over a list of actions is one interleaving. An action
that is not due changes nothing.
-/

namespace Onboard

inductive AuditPhase where
  /-- The log can still give out sinks. -/
  | accepting
  | joining
  | returned
  deriving DecidableEq

inductive AuditAction where
  | sink (name : Nat)
  | clone (sink name : Nat)
  | record (sink : Nat) (r : AuditRecord)
  | drop (sink : Nat)
  | write
  /-- The writer's buffer passes bytes on to the file. -/
  | spill (bytes : Nat)
  /-- The writer passes on all that is left, and ends. -/
  | finish
  | beginExit
  | join
  deriving DecidableEq

structure Recording where
  log : AuditLog
  /-- How many of the bytes written have reached the file. -/
  inFile : Nat
  sinks : List Nat
  writing : Bool
  phase : AuditPhase
  deriving DecidableEq

namespace Recording

/-- A log whose file has just been made. -/
def opened (path : String) : Recording :=
  ⟨⟨path, [], []⟩, 0, [], true, .accepting⟩

theorem opened_log (created : AuditLog.create t path = .ok (new, made)) : (opened path).log = new := by
  unfold AuditLog.create at created
  split at created
  · cases created
    rfl
  · cases created

def file (r : Recording) : Bytes :=
  r.log.written.take r.inFile

/-- Whether a record may still be queued. -/
def isOpen (r : Recording) : Bool :=
  r.phase = .accepting || !r.sinks.isEmpty

def step (r : Recording) : AuditAction → Recording
  | .sink name => if r.phase = .accepting then { r with sinks := name :: r.sinks } else r
  | .clone sink name => if sink ∈ r.sinks then { r with sinks := name :: r.sinks } else r
  | .record sink record => if sink ∈ r.sinks then { r with log := r.log.record record } else r
  | .drop sink => { r with sinks := r.sinks.erase sink }
  | .write => if r.writing then { r with log := r.log.writeNext } else r
  | .spill bytes => { r with inFile := min (r.inFile + bytes) r.log.written.length }
  | .finish =>
    if r.log.pending = [] ∧ !r.isOpen then { r with inFile := r.log.written.length, writing := false } else r
  | .beginExit => if r.phase = .accepting then { r with phase := .joining } else r
  | .join => if r.phase = .joining ∧ !r.writing then { r with phase := .returned } else r

def run (r : Recording) (actions : List AuditAction) : Recording :=
  actions.foldl step r

theorem run_append (r : Recording) (a b : List AuditAction) : r.run (a ++ b) = (r.run a).run b := by
  simp [run]

/-- The record that an action queues. -/
def queued? (r : Recording) : AuditAction → Option AuditRecord
  | .record sink record => if sink ∈ r.sinks then some record else none
  | _ => none

/-- The records that a run queues, in this order. -/
def queued (r : Recording) : List AuditAction → List AuditRecord
  | [] => []
  | action :: rest => (r.queued? action).toList ++ queued (r.step action) rest

end Recording

end Onboard
