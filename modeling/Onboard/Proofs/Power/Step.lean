import Onboard.Proofs.Power.History

/-! All that one action can do to the link, guards and results in full, with what it brings about. Invariants of the
link are read off `Acts`, one case for each thing that can happen. -/

namespace Onboard.PowerService

inductive Acts (s : PowerService) : PowerAction → Option PowerEvent → PowerService → Prop where
  /-- The action is not due. -/
  | waits : Acts s action none s
  | goesOn : s.thread = .checking → Acts s .check none { s with thread := .readingFlag }
  | ends : s.thread = .checking → Acts s .check (some .ended) { s with thread := .ended }
  | readsFlag : s.thread = .readingFlag → Acts s .readFlag (some .begun) { s with thread := .flushing s.isSafing }
  | flushes : s.thread = .flushing isForced →
      Acts s (.flushReceive none) (some .flushed) { s with thread := .reading isForced }
  | receives : s.thread = .reading isForced →
      Acts s (.read (.ok frame)) (some (.received frame)) { s with thread := .publishing isForced frame }
  | publishes : s.thread = .publishing isForced frame → PowerStatus.ofFrame frame = .ok status →
      Acts s (.publish now) (some (.judged frame now))
        { s with channel := s.channel.publishStatus status now, thread := .loading isForced none }
  | drops : s.thread = .publishing isForced frame → PowerStatus.ofFrame frame = .error e →
      Acts s (.publish now) (some (.judged frame now)) { s with thread := .loading isForced (some e) }
  | loads : s.thread = .loading isForced dropped →
      Acts s .load (some .loaded) { s with thread := .discarding (s.commandFor isForced) dropped }
  | discards : s.thread = .discarding command dropped →
      Acts s (.flushSend none) (some .discarded) { s with thread := .writing command dropped }
  | writes : s.thread = .writing command dropped →
      Acts s (.write none) (some (.written command.toFrame))
        { s with thread := .checking, written := s.written ++ [command.toFrame], log := s.log ++ report dropped }
  | failsReading : s.thread = .flushing isForced ∨ s.thread = .reading isForced →
      Acts s action (some (.failed (.read cause))) { s with thread := .failed (.read cause) }
  | failsWriting : s.thread = .discarding command dropped ∨ s.thread = .writing command dropped →
      Acts s action (some (.failed (.write cause))) { s with thread := .failed (.write cause) }
  | polls : Acts s (.poll demand calibration) (some (.demanded (.ofDemand calibration demand)))
      { s with channel := s.channel.publishCommand (.ofDemand calibration demand) }
  | safes : Acts s .makeSafe (some .safed) { s with isSafing := true }
  | stops : Acts s .requestStop none { s with running := false }
  | joins : s.thread = .ended → Acts s .join (some .stopped) { s with isJoined := true }

theorem acts (s : PowerService) (action : PowerAction) : Acts s action (s.event? action) (s.step action) := by
  cases action with
  | check =>
    cases thread : s.thread with
    | checking =>
      simp only [event?, step, thread]
      by_cases running : s.running = true
      · rw [if_pos running, if_pos running]
        exact .goesOn thread
      · rw [if_neg running, if_neg running]
        exact .ends thread
    | _ => simp only [event?, step, thread]; exact .waits
  | readFlag =>
    cases thread : s.thread with
    | readingFlag => simp only [event?, step, thread]; exact .readsFlag thread
    | _ => simp only [event?, step, thread]; exact .waits
  | flushReceive failure =>
    cases thread : s.thread with
    | flushing isForced =>
      simp only [event?, step, thread]
      cases failure with
      | none => exact .flushes thread
      | some cause => exact .failsReading (.inl thread)
    | _ => simp only [event?, step, thread]; exact .waits
  | read result =>
    cases thread : s.thread with
    | reading isForced =>
      cases result with
      | ok frame => simp only [event?, step, thread]; exact .receives thread
      | error cause => simp only [event?, step, thread]; exact .failsReading (.inr thread)
    | _ => simp only [event?, step, thread]; exact .waits
  | publish now =>
    cases thread : s.thread with
    | publishing isForced frame =>
      simp only [event?, step, thread, publish]
      split
      · exact .publishes thread ‹_›
      · exact .drops thread ‹_›
    | _ => simp only [event?, step, thread]; exact .waits
  | load =>
    cases thread : s.thread with
    | loading isForced dropped => simp only [event?, step, thread]; exact .loads thread
    | _ => simp only [event?, step, thread]; exact .waits
  | flushSend failure =>
    cases thread : s.thread with
    | discarding command dropped =>
      simp only [event?, step, thread]
      cases failure with
      | none => exact .discards thread
      | some cause => exact .failsWriting (.inl thread)
    | _ => simp only [event?, step, thread]; exact .waits
  | write failure =>
    cases thread : s.thread with
    | writing command dropped =>
      cases failure with
      | none => simp only [event?, step, thread]; exact .writes thread
      | some cause => simp only [event?, step, thread]; exact .failsWriting (.inr thread)
    | _ => simp only [event?, step, thread]; exact .waits
  | poll demand calibration => exact .polls
  | makeSafe => exact .safes
  | requestStop => exact .stops
  | join =>
    by_cases thread : s.thread = .ended
    · have due : s.step .join = { s with isJoined := true } := by simp only [step, thread]
      have said : s.event? .join = some .stopped := by simp only [event?, thread]
      rw [due, said]
      exact .joins thread
    · have idle : s.step .join = s := by simp only [step]
      have silent : s.event? .join = none := by simp only [event?]
      rw [idle, silent]
      exact .waits

end Onboard.PowerService
