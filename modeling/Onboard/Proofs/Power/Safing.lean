import Onboard.Proofs.Power.Frame
import Onboard.Proofs.Power.Step

/-! What the power board is told after it was made safe. The thread reads the safing flag once, at the head of an
exchange, and then waits for the board: an exchange that begins under the flag is idle, and the one under way may
still send what it was asked for. The main statement says exactly when every later frame is idle, and that at most
the first one is not. -/

namespace Onboard

/-- Whether the thread commands nothing but idle once the flag is up. -/
def PowerThread.staysIdle : PowerThread → Bool
  | .checking | .readingFlag | .ended | .failed _ => true
  | .flushing isForced | .reading isForced | .publishing isForced _ | .loading isForced _ => isForced
  | .discarding command _ | .writing command _ => command.mode = .idle

/-- The board reads the frame as a command to be idle. -/
def IsIdleFrame (frame : Bytes) : Prop :=
  ∃ command, PulseCommand.ofFrame frame = .ok command ∧ command.mode = .idle

theorem isIdleFrame_toFrame {command : PulseCommand} : IsIdleFrame command.toFrame ↔ command.mode = .idle := by
  unfold IsIdleFrame
  rw [PulseCommand.ofFrame_toFrame]
  constructor
  · rintro ⟨read, same, idle⟩
    cases same
    exact idle
  · exact fun idle => ⟨command, rfl, idle⟩

namespace PowerService

/-- The flag is up, and the thread no longer holds a command from before. -/
structure Settled (s : PowerService) : Prop where
  safing : s.isSafing = true
  idle : s.thread.staysIdle = true

theorem Acts.keeps_safing (acts : Acts s action outcome t) (safing : s.isSafing = true) : t.isSafing = true := by
  cases acts with
  | safes => rfl
  | _ => exact safing

theorem Acts.settled (acts : Acts s action outcome t) (settled : s.Settled) : t.Settled := by
  obtain ⟨safing, idle⟩ := settled
  refine ⟨acts.keeps_safing safing, ?_⟩
  cases acts with
  | readsFlag => exact safing
  | loads thread =>
    rw [thread] at idle
    cases idle
    rfl
  | flushes thread | receives thread | publishes thread | drops thread | discards thread =>
    rw [thread] at idle
    exact idle
  | goesOn | ends | writes | failsReading | failsWriting => rfl
  | _ => exact idle

/-- Only the end of an exchange writes, and a thread that has written is back at its head. -/
theorem Acts.written (acts : Acts s action outcome t) :
    t.written = s.written ∨ ∃ command dropped, s.thread = .writing command dropped ∧ t.thread = .checking ∧
      t.written = s.written ++ [command.toFrame] := by
  cases acts with
  | writes thread => exact .inr ⟨_, _, thread, rfl, rfl⟩
  | _ => exact .inl rfl

theorem run_settled (s : PowerService) (settled : s.Settled) (actions : List PowerAction) :
    ∃ frames, (s.run actions).written = s.written ++ frames ∧ ∀ frame ∈ frames, IsIdleFrame frame := by
  induction actions generalizing s with
  | nil => exact ⟨[], (List.append_nil _).symm, nofun⟩
  | cons action rest ih =>
    obtain ⟨frames, later, idle⟩ := ih (s.step action) ((s.acts action).settled settled)
    rcases (s.acts action).written with silent | ⟨command, dropped, thread, -, wrote⟩
    · exact ⟨frames, by rw [← silent]; exact later, idle⟩
    · have held := settled.idle
      rw [thread] at held
      refine ⟨command.toFrame :: frames, ?_, ?_⟩
      · rw [List.append_cons, ← wrote]
        exact later
      · rintro frame (_ | ⟨_, member⟩)
        · exact isIdleFrame_toFrame.mpr (of_decide_eq_true held)
        · exact idle frame member

/-- The first frame may have been under way; after it the thread has settled. -/
theorem run_safing (s : PowerService) (safing : s.isSafing = true) (actions : List PowerAction) :
    ∃ frames, (s.run actions).written = s.written ++ frames ∧ ∀ frame ∈ frames.tail, IsIdleFrame frame := by
  induction actions generalizing s with
  | nil => exact ⟨[], (List.append_nil _).symm, nofun⟩
  | cons action rest ih =>
    have kept := (s.acts action).keeps_safing safing
    rcases (s.acts action).written with silent | ⟨command, dropped, -, back, wrote⟩
    · obtain ⟨frames, later, idle⟩ := ih (s.step action) kept
      exact ⟨frames, by rw [← silent]; exact later, idle⟩
    · have settled : (s.step action).Settled := ⟨kept, by rw [back]; rfl⟩
      obtain ⟨frames, later, idle⟩ := run_settled _ settled rest
      refine ⟨command.toFrame :: frames, ?_, idle⟩
      rw [List.append_cons, ← wrote]
      exact later

def chip : PowerAction :=
  .poll (.chip 1.0) ⟨0.3589, 300, 350⟩

/-- The board answers a thread that waits for it, or is about to. -/
def answered : List PowerAction :=
  [.flushReceive none, .read (.ok (List.replicate 19 0)), .publish 0]

/-- The rest of any exchange, with a demand handed over just before the command is loaded. Actions that are not due
are passed over. -/
def finishing : List PowerAction :=
  answered ++ [chip, .load, .flushSend none, .write none]

theorem commandFor_chip (s : PowerService) : ((s.step chip).commandFor false).mode = .chip := by
  have valid : PulseCommand.isValidDemand 1.0 = true := by decide
  simp only [step, chip, commandFor, PulseCommand.ofDemand, valid]
  rfl

theorem publish_loading (s : PowerService) (isForced : Bool) (frame : Bytes) (now : Instant) :
    ∃ dropped, (s.publish isForced frame now).thread = .loading isForced dropped ∧
      (s.publish isForced frame now).written = s.written := by
  unfold publish
  split
  · exact ⟨none, rfl, rfl⟩
  · exact ⟨_, rfl, rfl⟩

theorem sends_chip (s : PowerService) (thread : s.thread = .loading false dropped) :
    ∃ command : PulseCommand, command.mode ≠ .idle ∧
      (s.run [chip, .load, .flushSend none, .write none]).written = s.written ++ [command.toFrame] := by
  refine ⟨(s.step chip).commandFor false, by rw [s.commandFor_chip]; decide, ?_⟩
  simp only [run, chip, List.foldl_cons, List.foldl_nil, step, thread, proceed, Option.map_none]

/-- A thread that has not settled can be made to send something else than idle. -/
theorem finishing_sends (s : PowerService) (unsettled : s.thread.staysIdle = false) :
    ∃ command : PulseCommand, command.mode ≠ .idle ∧
      (s.run finishing).written = s.written ++ [command.toFrame] := by
  cases thread : s.thread with
  | checking | readingFlag | ended | failed =>
    rw [thread] at unsettled
    cases unsettled
  | writing command dropped | discarding command dropped =>
    rw [thread] at unsettled
    refine ⟨command, of_decide_eq_false unsettled, ?_⟩
    simp only [run, finishing, answered, chip, List.cons_append, List.nil_append, List.foldl_cons, List.foldl_nil,
      step, thread, proceed, Option.map_none]
  | loading isForced dropped =>
    rw [thread] at unsettled
    cases unsettled
    have same : s.run answered = s := by
      simp only [run, answered, List.foldl_cons, List.foldl_nil, step, thread]
    rw [finishing, run_append, same]
    exact s.sends_chip thread
  | flushing isForced | reading isForced | publishing isForced frame =>
    rw [thread] at unsettled
    cases unsettled
    have loading : ∃ dropped, (s.run answered).thread = .loading false dropped ∧
        (s.run answered).written = s.written := by
      simp only [run, answered, List.foldl_cons, List.foldl_nil, step, thread, proceed, Option.map_none]
      exact publish_loading ..
    obtain ⟨dropped, loading, silent⟩ := loading
    rw [finishing, run_append, ← silent]
    exact sends_chip _ loading

/-- The frames whose writes begin after the board was made safe, in a run that does so between `before` and
`after`. -/
def lateFrames (before after : List PowerAction) : List Bytes :=
  (started.run (before ++ .makeSafe :: after)).written.drop (started.run before).written.length

theorem lateFrames_eq (before after : List PowerAction)
    (written : (((started.run before).step .makeSafe).run after).written = (started.run before).written ++ frames) :
    lateFrames before after = frames := by
  rw [lateFrames, run_append]
  exact (congrArg (List.drop _) written).trans List.drop_left

/-- Safing holds for every exchange that begins under it. It binds the exchange under way exactly when that one was
already idle, and of all later frames only the first may command the board. -/
theorem late_frames_idle_iff (before : List PowerAction) :
    ((∀ after, ∀ frame ∈ lateFrames before after, IsIdleFrame frame) ↔ (started.run before).thread.staysIdle) ∧
      ∀ after, ∀ frame ∈ (lateFrames before after).tail, IsIdleFrame frame := by
  refine ⟨⟨fun idle => ?_, fun idle after => ?_⟩, fun after => ?_⟩
  · cases settled : (started.run before).thread.staysIdle with
    | true => rfl
    | false =>
      obtain ⟨command, moving, wrote⟩ := finishing_sends ((started.run before).step .makeSafe) settled
      have sent : command.toFrame ∈ lateFrames before finishing := by
        rw [lateFrames_eq before finishing wrote]
        exact List.mem_singleton_self _
      exact absurd (isIdleFrame_toFrame.mp (idle finishing _ sent)) moving
  · obtain ⟨frames, wrote, all⟩ := run_settled ((started.run before).step .makeSafe) ⟨rfl, idle⟩ after
    rw [lateFrames_eq before after wrote]
    exact all
  · obtain ⟨frames, wrote, rest⟩ := run_safing ((started.run before).step .makeSafe) rfl after
    rw [lateFrames_eq before after wrote]
    exact rest

/-- A board asked to chip while the thread waits for its status is told to chip after it was made safe. -/
theorem late_frame_chips :
    ¬ ∀ before after, ∀ frame ∈ lateFrames before after, IsIdleFrame frame := by
  intro idle
  have late : lateFrames (approach ++ [chip]) (answering PowerStatus.initial.toFrame 0) =
      [PulseCommand.toFrame ⟨.chip, 0, 350⟩] := by
    decide +kernel
  have sent : PulseCommand.toFrame ⟨.chip, 0, 350⟩ ∈
      lateFrames (approach ++ [chip]) (answering PowerStatus.initial.toFrame 0) := by
    rw [late]
    exact List.mem_singleton_self _
  cases isIdleFrame_toFrame.mp (idle _ _ _ sent)

end PowerService

end Onboard
