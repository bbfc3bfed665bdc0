import Mathlib.Logic.Basic
import Onboard.Proofs.Power.Step

/-! What the control loop and the board get from each other. Polls return the last good status, and a frame that is
written carries the command that was handed over last when its exchange loaded one, or idle if the exchange began
under the safing flag. An exchange that nothing disturbs brings the one a status and the other a command. One whose
read fails leaves nothing behind, one whose write fails leaves the status it has read, and a stopped link is silent. -/

namespace Onboard
open PowerEvent

/-- The exchange under way, what came before it and what has happened since it began; it has loaded nothing yet. -/
def UnderWay (allowed : PowerEvent → Bool) (events : List PowerEvent) (isForced : Bool) : Prop :=
  ∃ earlier since, events = earlier ++ .begun :: since ∧
    (∀ event ∈ since, event.isMark = false ∧ allowed event = true) ∧ (isForced = true ↔ .safed ∈ earlier)

/-- The exchange under way has loaded this command, and has not written it yet. -/
def Takes (events : List PowerEvent) (command : PulseCommand) : Prop :=
  ∃ earlier since later, events = earlier ++ .begun :: since ++ .loaded :: later ∧
    (∀ event ∈ since ++ later, event.isMark = false) ∧
    command = if .safed ∈ earlier then .idle else lastDemand (earlier ++ .begun :: since)

theorem UnderWay.snoc (underWay : UnderWay allowed events isForced) (event : PowerEvent)
    (plain : event.isMark = false ∧ allowed event = true) : UnderWay allowed (events ++ [event]) isForced := by
  obtain ⟨earlier, since, rfl, all, forced⟩ := underWay
  refine ⟨earlier, since ++ [event], by simp, fun e member => ?_, forced⟩
  rcases List.mem_append.mp member with old | new
  · exact all e old
  · rw [List.mem_singleton.mp new]
    exact plain

theorem UnderWay.weaken (underWay : UnderWay allowed events isForced)
    (more : ∀ event, allowed event = true → permitted event = true) : UnderWay permitted events isForced := by
  obtain ⟨earlier, since, split, all, forced⟩ := underWay
  exact ⟨earlier, since, split, fun e member => ⟨(all e member).1, more e (all e member).2⟩, forced⟩

theorem Takes.snoc (takes : Takes events command) (event : PowerEvent) (plain : event.isMark = false) :
    Takes (events ++ [event]) command := by
  obtain ⟨earlier, since, later, rfl, all, same⟩ := takes
  refine ⟨earlier, since, later ++ [event], by simp, fun e member => ?_, same⟩
  rw [← List.append_assoc] at member
  rcases List.mem_append.mp member with old | new
  · exact all e old
  · rw [List.mem_singleton.mp new]
    exact plain

theorem UnderWay.load (underWay : UnderWay allowed events isForced) :
    Takes (events ++ [.loaded]) (if isForced then .idle else lastDemand events) := by
  obtain ⟨earlier, since, rfl, all, forced⟩ := underWay
  refine ⟨earlier, since, [], by simp, fun e member => ?_, if_congr forced rfl rfl⟩
  rw [List.append_nil] at member
  exact (all e member).1

/-- The exchange under way has read its frame as a status, and nothing has been read since. -/
def HasJudged (events : List PowerEvent) : Prop :=
  ∃ earlier frame now since, events = earlier ++ .judged frame now :: since ∧
    ∀ event ∈ since, event.isJudgement = false ∧ event ≠ .begun

theorem HasJudged.snoc (judged : HasJudged events) (event : PowerEvent)
    (plain : event.isJudgement = false ∧ event ≠ .begun) : HasJudged (events ++ [event]) := by
  obtain ⟨earlier, frame, now, since, rfl, all⟩ := judged
  refine ⟨earlier, frame, now, since ++ [event], by simp, fun e member => ?_⟩
  rcases List.mem_append.mp member with old | new
  · exact all e old
  · rw [List.mem_singleton.mp new]
    exact plain

/-- What the thread's place in its exchange says of the past. -/
def PowerThread.Fits (events : List PowerEvent) : PowerThread → Prop
  | .flushing isForced | .reading isForced | .publishing isForced _ =>
    UnderWay (fun event => !event.isJudgement) events isForced
  | .loading isForced _ => UnderWay (fun _ => true) events isForced
  | .discarding command _ | .writing command _ => Takes events command
  | .checking | .readingFlag | .ended | .failed _ => True

theorem PowerEvent.plain_of_other {event : PowerEvent} (other : event.isOfThread = false) :
    event.isMark = false ∧ event.isJudgement = false := by
  cases event <;> first | contradiction | exact ⟨rfl, rfl⟩

/-- Others do not disturb an exchange. -/
theorem PowerThread.Fits.snoc {thread : PowerThread} (fits : thread.Fits events) {event : PowerEvent}
    (other : event.isOfThread = false) : thread.Fits (events ++ [event]) := by
  have plain := plain_of_other other
  cases thread with
  | flushing | reading | publishing => exact UnderWay.snoc fits event ⟨plain.1, congrArg not plain.2⟩
  | loading => exact UnderWay.snoc fits event ⟨plain.1, rfl⟩
  | discarding | writing => exact Takes.snoc fits event plain.1
  | checking | readingFlag | ended | failed => trivial

namespace PowerService

/-- Whether the thread has read a frame and still has to send a command for it. -/
def owes (s : PowerService) : Bool :=
  match s.thread with
  | .loading .. | .discarding .. | .writing .. => true
  | _ => false

/-- What the state of the link says of its past. -/
structure Traced (events : List PowerEvent) (s : PowerService) : Prop where
  status : s.channel.status.load = ((lastGood? events).map fun good => (good.1, some good.2)).getD (.initial, none)
  command : s.channel.latestCommand = lastDemand events
  safing : s.isSafing = true ↔ .safed ∈ events
  written : s.written = events.filterMap frame?
  thread : s.thread.Fits events
  judged : s.owes = true → HasJudged events

theorem lastGood?_append (events : List PowerEvent) (outcome : Option PowerEvent) :
    lastGood? (events ++ outcome.toList) = (outcome.bind good?).or (lastGood? events) := by
  cases outcome with
  | none => simp
  | some event => cases good : event.good? <;> simp [lastGood?, good]

theorem lastDemand_append (events : List PowerEvent) (outcome : Option PowerEvent) :
    lastDemand (events ++ outcome.toList) = (outcome.bind command?).getD (lastDemand events) := by
  cases outcome with
  | none => simp
  | some event => cases command : event.command? <;> simp [lastDemand, command]

/-- The cells, the flag and the board's side change just as the event says. -/
theorem Acts.effect (acts : Acts s action outcome t) :
    t.channel.status.load =
        ((outcome.bind good?).map fun good => (good.1, some good.2)).getD s.channel.status.load ∧
      t.channel.latestCommand = (outcome.bind command?).getD s.channel.latestCommand ∧
      (t.isSafing = true ↔ s.isSafing = true ∨ outcome = some .safed) ∧
      t.written = s.written ++ (outcome.bind frame?).toList := by
  cases acts with
  | publishes thread read =>
    simp only [Option.bind_some, good?, read]
    exact ⟨rfl, rfl, by simp, by simp [frame?]⟩
  | drops thread read =>
    simp only [Option.bind_some, good?, read]
    exact ⟨rfl, rfl, by simp, by simp [frame?]⟩
  | writes thread => exact ⟨rfl, rfl, by simp, by simp [frame?]⟩
  | safes => exact ⟨rfl, rfl, by simp, by simp [frame?]⟩
  | _ => exact ⟨rfl, rfl, by simp, by simp [frame?]⟩

theorem Acts.fits (acts : Acts s action outcome t) (fits : s.thread.Fits events)
    (safing : s.isSafing = true ↔ .safed ∈ events) (command : s.channel.latestCommand = lastDemand events) :
    t.thread.Fits (events ++ outcome.toList) := by
  cases acts with
  | waits | stops => simpa using fits
  | goesOn | ends | writes | failsReading | failsWriting => trivial
  | readsFlag => exact ⟨events, [], rfl, nofun, safing⟩
  | flushes thread | receives thread =>
    rw [thread] at fits
    exact UnderWay.snoc fits _ ⟨rfl, rfl⟩
  | publishes thread | drops thread =>
    rw [thread] at fits
    exact (UnderWay.weaken fits fun _ _ => rfl).snoc _ ⟨rfl, rfl⟩
  | loads thread =>
    rw [thread] at fits
    rw [commandFor, command]
    exact UnderWay.load fits
  | discards thread =>
    rw [thread] at fits
    exact Takes.snoc fits _ rfl
  | polls | safes | joins => exact fits.snoc rfl

theorem Acts.judged (acts : Acts s action outcome t) (judged : s.owes = true → HasJudged events) (owes : t.owes = true) :
    HasJudged (events ++ outcome.toList) := by
  cases acts with
  | waits | stops => simpa using judged owes
  | polls | safes | joins => exact (judged owes).snoc _ ⟨rfl, nofun⟩
  | publishes | drops => exact ⟨events, _, _, [], rfl, nofun⟩
  | loads thread | discards thread =>
    have owed : s.owes = true := by rw [PowerService.owes, thread]
    exact (judged owed).snoc _ ⟨rfl, nofun⟩
  | goesOn | ends | readsFlag | flushes | receives | writes | failsReading | failsWriting => contradiction

theorem Traced.acts (traced : Traced events s) (acts : Acts s action outcome t) :
    Traced (events ++ outcome.toList) t := by
  obtain ⟨status, command, safing, written⟩ := acts.effect
  exact {
    status := by
      rw [status, lastGood?_append, traced.status]
      cases outcome.bind good? <;> rfl
    command := by rw [command, lastDemand_append, traced.command]
    safing := by rw [safing, traced.safing, List.mem_append, Option.mem_toList]
    written := by
      rw [written, traced.written, List.filterMap_append]
      cases outcome with
      | none => rfl
      | some event => cases sent : event.frame? <;> simp [sent]
    thread := acts.fits traced.thread traced.safing traced.command
    judged := acts.judged traced.judged }

theorem Traced.run (traced : Traced events s) (actions : List PowerAction) :
    Traced (events ++ s.history actions) (s.run actions) := by
  induction actions generalizing s events with
  | nil => rwa [history, List.append_nil]
  | cons action rest ih =>
    rw [history, ← List.append_assoc]
    exact ih (traced.acts (s.acts action))

theorem traced (actions : List PowerAction) : Traced (started.history actions) (started.run actions) := by
  have start : Traced [] started := ⟨rfl, rfl, by simp [started], rfl, trivial, nofun⟩
  exact start.run actions

/-- Every event of a run is what an action does in a state that tells the events before it. -/
theorem traced_split (split : started.history actions = before ++ event :: after) :
    ∃ s action rest, Traced before s ∧ Acts s action (some event) (s.step action) ∧
      (s.step action).history rest = after := by
  obtain ⟨a, action, rest, -, rfl, due, later⟩ := history_split split
  have acts := (started.run a).acts action
  rw [due] at acts
  exact ⟨started.run a, action, rest, traced a, acts, later⟩

/-- An ended thread and a failed one do nothing more. -/
def IsOver (s : PowerService) : Prop :=
  s.thread = .ended ∨ ∃ error, s.thread = .failed error

theorem Acts.over (acts : Acts s action outcome t) (done : s.IsOver) :
    t.IsOver ∧ ∀ event, outcome = some event → event.isOfThread = false := by
  cases acts with
  | waits | stops => exact ⟨done, nofun⟩
  | polls | safes | joins =>
    refine ⟨done, fun event same => ?_⟩
    cases same
    rfl
  | failsReading thread | failsWriting thread =>
    rcases thread with thread | thread <;> rcases done with done | ⟨_, done⟩ <;> cases thread.symm.trans done
  | goesOn thread | ends thread | readsFlag thread | flushes thread | receives thread | publishes thread
  | drops thread | loads thread | discards thread | writes thread =>
    rcases done with done | ⟨_, done⟩ <;> cases thread.symm.trans done

theorem history_over {s : PowerService} (done : s.IsOver) (actions : List PowerAction) :
    ∀ event ∈ s.history actions, event.isOfThread = false := by
  induction actions generalizing s with
  | nil => exact nofun
  | cons action rest ih =>
    obtain ⟨still, silent⟩ := (s.acts action).over done
    intro event member
    rcases List.mem_append.mp member with now | later
    · exact silent event (Option.mem_toList.mp now)
    · exact ih still event later

theorem Acts.owes (acts : Acts s action outcome t) (owes : s.owes = true) :
    (t.owes = true ∧ outcome ≠ some .begun ∧ outcome ≠ some .ended) ∨ (∃ frame, outcome = some (.written frame)) ∨
      ∃ error, outcome = some (.failed error) ∧ t.IsOver := by
  unfold PowerService.owes at owes
  cases acts with
  | waits | stops | polls | safes => exact .inl ⟨owes, nofun, nofun⟩
  | goesOn thread | ends thread | readsFlag thread | flushes thread | receives thread | publishes thread
  | drops thread | joins thread =>
    rw [thread] at owes
    contradiction
  | loads | discards => exact .inl ⟨rfl, nofun, nofun⟩
  | writes => exact .inr (.inl ⟨_, rfl⟩)
  | failsReading | failsWriting => exact .inr (.inr ⟨_, rfl, .inr ⟨_, rfl⟩⟩)

/-- No exchange begins and the thread does not end before what is owed has been sent. -/
theorem owes_written {s : PowerService} (owes : s.owes = true)
    (split : s.history actions = between ++ event :: later) (next : event = .begun ∨ event = .ended) :
    ∃ frame, .written frame ∈ between := by
  induction actions generalizing s between with
  | nil => cases between <;> contradiction
  | cons action rest ih =>
    have course := (s.acts action).owes owes
    rcases toList_append_eq split with ⟨happens, -, -⟩ | ⟨tail, rfl, after⟩
    · rw [happens] at course
      rcases course with ⟨-, notBegun, notEnded⟩ | ⟨frame, ⟨⟩⟩ | ⟨error, ⟨⟩, -⟩
      · rcases next with rfl | rfl
        · exact absurd rfl notBegun
        · exact absurd rfl notEnded
      all_goals rcases next with next | next <;> contradiction
    · rcases course with ⟨still, -⟩ | ⟨frame, wrote⟩ | ⟨error, -, done⟩
      · obtain ⟨frame, member⟩ := ih still after
        exact ⟨frame, List.mem_append_right _ member⟩
      · exact ⟨frame, List.mem_append_left _ (Option.mem_toList.mpr wrote)⟩
      · have silent := history_over done rest event (by rw [after]; simp)
        rcases next with rfl | rfl <;> contradiction

theorem Acts.of_written (acts : Acts s action (some (.written frame)) t) :
    ∃ command dropped, s.thread = .writing command dropped ∧ frame = command.toFrame := by
  cases acts with
  | writes thread => exact ⟨_, _, thread, rfl⟩

theorem Acts.of_failed_read (acts : Acts s action (some (.failed (.read cause))) t) :
    ∃ isForced, s.thread = .flushing isForced ∨ s.thread = .reading isForced := by
  cases acts with
  | failsReading thread => exact ⟨_, thread⟩

theorem Acts.of_failed_write (acts : Acts s action (some (.failed (.write cause))) t) :
    ∃ command dropped, s.thread = .discarding command dropped ∨ s.thread = .writing command dropped := by
  cases acts with
  | failsWriting thread => exact ⟨_, _, thread⟩

theorem Acts.isOver (acts : Acts s action (some event) t)
    (last : (∃ error, event = .failed error) ∨ event = .stopped) : t.IsOver := by
  cases acts with
  | failsReading | failsWriting => exact .inr ⟨_, rfl⟩
  | joins thread => exact .inl thread
  | _ => rcases last with ⟨_, same⟩ | same <;> cases same

theorem good?_of_unjudged {event : PowerEvent} (unjudged : event.isJudgement = false) : event.good? = none := by
  cases event with
  | judged => contradiction
  | _ => rfl

theorem lastGood?_unjudged (before : List PowerEvent) {after : List PowerEvent}
    (unjudged : ∀ event ∈ after, event.isJudgement = false) : lastGood? (before ++ after) = lastGood? before := by
  have none := List.filterMap_eq_nil_iff.mpr fun event member => good?_of_unjudged (unjudged event member)
  rw [lastGood?, List.filterMap_append, none, List.append_nil]
  rfl

/-- What an exchange brings that leads from one state to another while nothing disturbs it. -/
structure Exchanged (s t : PowerService) (command : PulseCommand) (frame : Bytes) (now : Instant) : Prop where
  /-- A malformed frame leaves the last good status. -/
  status : t.latestStatus = (PowerStatus.ofFrame frame).toOption.getD s.latestStatus
  age : ∀ later, t.statusAge later =
    if (PowerStatus.ofFrame frame).isOk then some (later.since now) else s.statusAge later
  written : t.written = s.written ++ [(if s.isSafing then .idle else command).toFrame]
  /-- Another exchange can begin. -/
  thread : t.thread = .checking
  running : t.running = true

theorem exchanged {s : PowerService} (idle : s.thread = .checking) (running : s.running = true) (frame : Bytes)
    (now : Instant) :
    Exchanged s (s.run (approach ++ answering frame now)) s.channel.latestCommand frame now := by
  simp only [run, approach, answering, List.cons_append, List.nil_append, List.foldl_cons, List.foldl_nil, step, idle,
    running, if_true, proceed, Option.map_none, publish]
  cases read : PowerStatus.ofFrame frame with
  | ok status => exact ⟨by rw [read]; rfl, fun _ => by rw [read]; rfl, rfl, rfl, rfl⟩
  | error e => exact ⟨by rw [read]; rfl, fun _ => by rw [read]; rfl, rfl, rfl, rfl⟩

/-- What the two sides get from each other in a run, its first actions included. -/
structure HandsOver (actions : List PowerAction) : Prop where
  /-- A poll returns the last good status, and the initial one before any. -/
  status : (started.run actions).latestStatus = ((lastGood? (started.history actions)).map Prod.fst).getD .initial
  age : ∀ now, (started.run actions).statusAge now =
    (lastGood? (started.history actions)).map fun good => now.since good.2
  /-- A malformed frame is as good as none, and its exchange goes on to a command before anything else. -/
  malformed : ∀ before now after isForced frame error, actions = before ++ .publish now :: after →
    (started.run before).thread = .publishing isForced frame → PowerStatus.ofFrame frame = .error error →
    ((started.run before).step (.publish now)).channel = (started.run before).channel ∧
      ((started.run before).run [.publish now, .load, .flushSend none, .write none]).written =
        (started.run before).written ++ [((started.run before).commandFor isForced).toFrame] ∧
      ∀ between event later, ((started.run before).step (.publish now)).history after = between ++ event :: later →
        event = .begun ∨ event = .ended → ∃ sent, .written sent ∈ between
  /-- An undisturbed exchange brings its status to the polls, and to the board the command polled before it. -/
  completes : ∀ demand calibration frame now, (started.run actions).thread = .checking →
    (started.run actions).running = true →
    Exchanged (started.run actions)
      ((started.run actions).run (.poll demand calibration :: approach ++ answering frame now))
      (.ofDemand calibration demand) frame now
  frames : (started.run actions).written = (started.history actions).filterMap frame?
  written : ∀ before frame after, started.history actions = before ++ .written frame :: after →
    ∃ command, Takes before command ∧ frame = command.toFrame
  /-- An exchange whose flush of what is received or whose read fails publishes, loads and writes nothing. -/
  unread : ∀ before cause after, started.history actions = before ++ .failed (.read cause) :: after →
    (∃ isForced, UnderWay (fun event => !event.isJudgement) before isForced) ∧
      ∀ event ∈ after, event.isOfThread = false
  /-- An exchange whose flush of what is sent or whose write fails has taken a command and does not write it. Its
  frame has been read before, and stays published if it was good. -/
  unsent : ∀ before cause after, started.history actions = before ++ .failed (.write cause) :: after →
    (∃ command, Takes before command) ∧ (∀ event ∈ after, event.isOfThread = false) ∧
      ∃ earlier frame now since, before = earlier ++ .judged frame now :: since ∧
        (∀ event ∈ since, event.isJudgement = false ∧ event ≠ .begun) ∧
        lastGood? (started.history actions) = (good? (.judged frame now)).or (lastGood? earlier)
  stopped : ∀ before after, started.history actions = before ++ .stopped :: after →
    ∀ event ∈ after, event.isOfThread = false

/-- Whatever the interleaving and whatever the link brings, control loop and board get what the other side handed
over last. -/
theorem hands_over (actions : List PowerAction) : HandsOver actions where
  status := by
    have held := congrArg Prod.fst (traced actions).status
    rw [latestStatus, CommandChannel.latestStatus, held]
    cases lastGood? (started.history actions) <;> rfl
  age now := by
    have held := congrArg Prod.snd (traced actions).status
    rw [statusAge, CommandChannel.statusAge, held]
    cases lastGood? (started.history actions) <;> rfl
  malformed := by
    intro before now after isForced frame error split thread bad
    have step : (started.run before).step (.publish now) =
        { started.run before with thread := .loading isForced (some error) } := by
      simp only [PowerService.step, thread, publish, bad]
    refine ⟨by rw [step], ?_, fun between event later after next => ?_⟩
    · simp only [run, List.foldl_cons, List.foldl_nil] at step ⊢
      rw [step]
      rfl
    · exact owes_written (by rw [step]; rfl) after next
  completes demand calibration frame now idle running :=
    have done := exchanged (s := (started.run actions).step (.poll demand calibration)) idle running frame now
    ⟨done.status, done.age, done.written, done.thread, done.running⟩
  frames := (traced actions).written
  written before frame after split := by
    obtain ⟨s, action, rest, traced, acts, -⟩ := traced_split split
    obtain ⟨command, dropped, thread, rfl⟩ := acts.of_written
    have fits := traced.thread
    rw [thread] at fits
    exact ⟨command, fits, rfl⟩
  unread before cause after split := by
    obtain ⟨s, action, rest, traced, acts, rfl⟩ := traced_split split
    obtain ⟨isForced, thread⟩ := acts.of_failed_read
    have fits := traced.thread
    refine ⟨⟨isForced, ?_⟩, history_over (acts.isOver (.inl ⟨_, rfl⟩)) rest⟩
    rcases thread with thread | thread <;> rw [thread] at fits <;> exact fits
  unsent before cause after split := by
    obtain ⟨s, action, rest, traced, acts, rfl⟩ := traced_split split
    obtain ⟨command, dropped, thread⟩ := acts.of_failed_write
    have fits := traced.thread
    have silent := history_over (acts.isOver (.inl ⟨_, rfl⟩)) rest
    have owed : s.owes = true := by
      rcases thread with thread | thread <;> rw [owes, thread]
    obtain ⟨earlier, frame, now, since, rfl, unjudged⟩ := traced.judged owed
    refine ⟨⟨command, ?_⟩, silent, earlier, frame, now, since, rfl, unjudged, ?_⟩
    · rcases thread with thread | thread <;> rw [thread] at fits <;> exact fits
    · have whole : started.history actions = earlier ++ [.judged frame now] ++
          (since ++ .failed (.write cause) :: (s.step action).history rest) := by
        rw [split]
        simp
      have unread : ∀ event ∈ since ++ .failed (.write cause) :: (s.step action).history rest,
          event.isJudgement = false := by
        intro event member
        rcases List.mem_append.mp member with old | new
        · exact (unjudged event old).1
        · rcases List.mem_cons.mp new with rfl | new
          · rfl
          · exact (plain_of_other (silent event new)).2
      rw [whole, lastGood?_unjudged _ unread]
      exact lastGood?_append earlier (some (.judged frame now))
  stopped before after split := by
    obtain ⟨s, action, rest, -, acts, rfl⟩ := traced_split split
    exact history_over (acts.isOver (.inr rfl)) rest

end PowerService

end Onboard
