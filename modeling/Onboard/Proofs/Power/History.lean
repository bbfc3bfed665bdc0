import Onboard.Power.Service

/-! What happens between the control loop, the exchanging thread and the board, as one list of events. An action that
is not due brings nothing about, and every event of a history happens in some state of its run. -/

namespace Onboard

inductive PowerEvent where
  /-- An exchange begins; the safing flag is read. -/
  | begun
  | flushed
  | received (frame : Bytes)
  /-- A frame is read as a status, and published if it is one. -/
  | judged (frame : Bytes) (now : Instant)
  | loaded
  | discarded
  | written (frame : Bytes)
  | failed (error : PowerError)
  | ended
  /-- A poll hands over a command. -/
  | demanded (command : PulseCommand)
  | safed
  /-- A stop returns. -/
  | stopped
  deriving DecidableEq

namespace PowerEvent

/-- The others only hand over, raise the flag or wait. -/
def isOfThread : PowerEvent → Bool
  | .demanded _ | .safed | .stopped => false
  | _ => true

/-- What an exchange does at most once, beside reading a status. -/
def isMark : PowerEvent → Bool
  | .begun | .loaded | .written _ => true
  | _ => false

def isJudgement : PowerEvent → Bool
  | .judged .. => true
  | _ => false

def good? : PowerEvent → Option (PowerStatus × Instant)
  | .judged frame now => (PowerStatus.ofFrame frame).toOption.map (·, now)
  | _ => none

def command? : PowerEvent → Option PulseCommand
  | .demanded command => some command
  | _ => none

def frame? : PowerEvent → Option Bytes
  | .written frame => some frame
  | _ => none

/-- The last good status, with the time at which it was read. -/
def lastGood? (events : List PowerEvent) : Option (PowerStatus × Instant) :=
  (events.filterMap good?).getLast?

/-- The command handed over last, idle before any. -/
def lastDemand (events : List PowerEvent) : PulseCommand :=
  ((events.filterMap command?).getLast?).getD .idle

end PowerEvent

namespace PowerService

/-- What an action brings about, if it is due. -/
def event? (s : PowerService) : PowerAction → Option PowerEvent
  | .check =>
    match s.thread with
    | .checking => if s.running then none else some .ended
    | _ => none
  | .readFlag =>
    match s.thread with
    | .readingFlag => some .begun
    | _ => none
  | .flushReceive failure =>
    match s.thread with
    | .flushing _ => some (failure.elim .flushed fun cause => .failed (.read cause))
    | _ => none
  | .read result =>
    match s.thread, result with
    | .reading _, .ok frame => some (.received frame)
    | .reading _, .error cause => some (.failed (.read cause))
    | _, _ => none
  | .publish now =>
    match s.thread with
    | .publishing _ frame => some (.judged frame now)
    | _ => none
  | .load =>
    match s.thread with
    | .loading .. => some .loaded
    | _ => none
  | .flushSend failure =>
    match s.thread with
    | .discarding .. => some (failure.elim .discarded fun cause => .failed (.write cause))
    | _ => none
  | .write failure =>
    match s.thread, failure with
    | .writing command _, none => some (.written command.toFrame)
    | .writing _ _, some cause => some (.failed (.write cause))
    | _, _ => none
  | .poll demand calibration => some (.demanded (.ofDemand calibration demand))
  | .makeSafe => some .safed
  | .requestStop => none
  | .join =>
    match s.thread with
    | .ended => some .stopped
    | _ => none

def history (s : PowerService) : List PowerAction → List PowerEvent
  | [] => []
  | action :: rest => (s.event? action).toList ++ history (s.step action) rest

/-- Something comes first or later. -/
theorem toList_append_eq {α : Type} {first : Option α} {tail before after : List α} {x : α}
    (split : first.toList ++ tail = before ++ x :: after) :
    (first = some x ∧ before = [] ∧ tail = after) ∨
      ∃ rest, before = first.toList ++ rest ∧ tail = rest ++ x :: after := by
  cases first with
  | none => exact .inr ⟨before, rfl, split⟩
  | some head =>
    cases before with
    | nil =>
      obtain ⟨rfl, rfl⟩ := List.cons.inj split
      exact .inl ⟨rfl, rfl, rfl⟩
    | cons _ rest =>
      obtain ⟨rfl, later⟩ := List.cons.inj split
      exact .inr ⟨rest, rfl, later⟩

/-- Every event of a history happens in some state of the run. -/
theorem history_split {s : PowerService} (split : s.history actions = before ++ event :: after) :
    ∃ a action b, actions = a ++ action :: b ∧ s.history a = before ∧ (s.run a).event? action = some event ∧
      ((s.run a).step action).history b = after := by
  induction actions generalizing s before with
  | nil => cases before <;> contradiction
  | cons action rest ih =>
    rcases toList_append_eq split with ⟨happens, rfl, later⟩ | ⟨tail, rfl, later⟩
    · exact ⟨[], action, rest, rfl, rfl, happens, later⟩
    · obtain ⟨a, act, b, rfl, first, due, last⟩ := ih later
      exact ⟨action :: a, act, b, rfl, congrArg _ first, due, last⟩

end PowerService

end Onboard
