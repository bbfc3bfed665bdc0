import Onboard.Proofs.Datagram.Listener

/-! How a listener is torn down while its thread may be anywhere. Its owner stops it any number of times, each stop
beginning after the one before has returned, and the last one when the listener is dropped. Only the first does
anything: it shuts the endpoint down, waits for the thread and closes the endpoint. -/

namespace Onboard

/-- What happens next to a listener: an action of its thread or its owner, or the end of its thread because whoever
was handed a message has failed. -/
inductive ListenerTurn where
  | act (action : ListenerAction)
  | breakOff
  deriving DecidableEq

/-- The turns of who stops the listener; all others are its thread's. -/
def ListenerTurn.isOwners : ListenerTurn → Bool
  | .act .beginStop | .act (.shutdown _) | .act .join | .act (.close _) => true
  | _ => false

/-- A call on the place where a listener receives. -/
inductive EndpointCall where
  | receive
  | teardown (phase : Teardown)
  deriving DecidableEq

def OnlyReceives (calls : List EndpointCall) : Prop :=
  ∀ call ∈ calls, call = .receive

/-- The turns that a thread takes at most until it ends, once it has been told to. -/
def ListenerThread.turnsLeft : ListenerThread α → Nat
  | .handing .. => 4
  | .recording _ => 3
  | .receiving => 2
  | .received _ => 1
  | .ended => 0

def ListenerStop.turnsLeft : ListenerStop → Nat
  | .shuttingDown => 3
  | .joining => 2
  | .closing => 1
  | .idle => 0

theorem OnlyReceives.append (before : OnlyReceives calls) (after : OnlyReceives later) :
    OnlyReceives (calls ++ later) := by
  intro call member
  rcases List.mem_append.mp member with early | late
  · exact before call early
  · exact after call late

namespace Listener

variable {α : Type} {l : Listener α}

/-- The first stop has returned. -/
def HasStopped (l : Listener α) : Prop :=
  l.running = false ∧ l.stopping = .idle

def turnsLeft (l : Listener α) : Nat :=
  l.thread.turnsLeft + l.stopping.turnsLeft

theorem turnsLeft_le (l : Listener α) : l.turnsLeft ≤ 7 := by
  have thread : l.thread.turnsLeft ≤ 4 := by
    unfold ListenerThread.turnsLeft
    split <;> decide
  have stopping : l.stopping.turnsLeft ≤ 3 := by
    unfold ListenerStop.turnsLeft
    split <;> decide
  exact Nat.add_le_add thread stopping

/-- How far the teardown has come, and the calls so far. -/
inductive TearsDown (l : Listener α) : List EndpointCall → Prop where
  | runs : l.running = true → l.stopping = .idle → OnlyReceives before → TearsDown l before
  | begins : l.running = false → l.stopping = .shuttingDown → OnlyReceives before → TearsDown l before
  | joins : l.running = false → l.stopping = .joining → OnlyReceives before → OnlyReceives between →
      TearsDown l (before ++ .teardown .shutdown :: between)
  | closes : l.running = false → l.stopping = .closing → l.thread = .ended → OnlyReceives before →
      OnlyReceives between → TearsDown l (before ++ .teardown .shutdown :: between)
  | finished : l.running = false → l.stopping = .idle → l.thread = .ended → OnlyReceives before →
      OnlyReceives between → TearsDown l (before ++ .teardown .shutdown :: (between ++ [.teardown .close]))

/-- What a turn of the owner does, and its calls. -/
inductive Moves (l : Listener α) : Listener α → List EndpointCall → Prop where
  | stays : Moves l l []
  | begins : l.running = true → l.stopping = .idle →
      Moves l { l with running := false, stopping := .shuttingDown } []
  | shutsDown (warnings : List ListenerWarning) : l.stopping = .shuttingDown →
      Moves l { l with stopping := .joining, warnings := warnings, teardown := l.teardown ++ [.shutdown] }
        [.teardown .shutdown]
  | joins : l.stopping = .joining → l.thread = .ended → Moves l { l with stopping := .closing } []
  | closes (warnings : List ListenerWarning) : l.stopping = .closing →
      Moves l { l with stopping := .idle, warnings := warnings, teardown := l.teardown ++ [.close] }
        [.teardown .close]

theorem TearsDown.opened (bufferSize : Nat) (audits : Bool) : (opened bufferSize audits : Listener α).TearsDown [] :=
  .runs rfl rfl nofun

/-- A move of the owner is the next phase of the teardown. -/
theorem TearsDown.move (tears : l.TearsDown made) (moves : l.Moves m calls) : m.TearsDown (made ++ calls) := by
  cases moves with
  | stays =>
    rw [List.append_nil]
    exact tears
  | begins running idle =>
    rw [List.append_nil]
    cases tears with
    | runs _ _ before => exact .begins rfl rfl before
    | begins stopped | joins stopped | closes stopped | finished stopped => exact nomatch running.symm.trans stopped
  | shutsDown warnings due =>
    cases tears with
    | begins stopped _ before => exact .joins stopped rfl before nofun
    | runs _ phase | joins _ phase | closes _ phase | finished _ phase => exact nomatch due.symm.trans phase
  | joins due ended =>
    rw [List.append_nil]
    cases tears with
    | joins stopped _ before between => exact .closes stopped rfl ended before between
    | runs _ phase | begins _ phase | closes _ phase | finished _ phase => exact nomatch due.symm.trans phase
  | closes warnings due =>
    cases tears with
    | closes stopped _ ended before between =>
      rw [List.append_assoc, List.cons_append]
      exact .finished stopped rfl ended before between
    | runs _ phase | begins _ phase | joins _ phase | finished _ phase => exact nomatch due.symm.trans phase

section Moves
variable {m : Listener α} (moves : l.Moves m calls)
include moves

/-- Only the last phase closes the endpoint, which comes after the thread's end has been seen. -/
theorem Moves.ended_of_close (tears : l.TearsDown made) (closing : .teardown .close ∈ calls) : l.thread = .ended := by
  cases moves with
  | closes _ due =>
    cases tears with
    | closes _ _ ended => exact ended
    | runs _ phase | begins _ phase | joins _ phase | finished _ phase => exact nomatch due.symm.trans phase
  | stays | begins | shutsDown | joins => simp at closing

theorem Moves.of_stopped (stopped : l.HasStopped) : m = l ∧ calls = [] := by
  obtain ⟨running, idle⟩ := stopped
  cases moves with
  | stays => exact ⟨rfl, rfl⟩
  | begins runs => exact nomatch running.symm.trans runs
  | shutsDown _ due | joins due | closes _ due => exact nomatch idle.symm.trans due

theorem Moves.running (stopped : l.running = false) : m.running = false := by
  cases moves with
  | begins => rfl
  | stays | shutsDown | joins | closes => exact stopped

theorem Moves.turnsLeft_lt (stopped : l.running = false) (changed : m ≠ l) : m.turnsLeft < l.turnsLeft := by
  unfold turnsLeft
  cases moves with
  | stays => exact absurd rfl changed
  | begins running => exact nomatch stopped.symm.trans running
  | shutsDown _ phase | joins phase | closes _ phase => simp [ListenerStop.turnsLeft, phase]

end Moves

theorem TearsDown.of_stopped (tears : l.TearsDown made) (stopped : l.HasStopped) :
    l.thread = .ended ∧ ∃ before between, OnlyReceives before ∧ OnlyReceives between ∧
      made = before ++ .teardown .shutdown :: (between ++ [.teardown .close]) := by
  obtain ⟨running, idle⟩ := stopped
  cases tears with
  | finished _ _ ended before between => exact ⟨ended, _, _, before, between, rfl⟩
  | runs runs => exact nomatch running.symm.trans runs
  | begins _ phase | joins _ phase | closes _ phase => exact nomatch idle.symm.trans phase

variable [Wire α]

def takeTurn (l : Listener α) : ListenerTurn → Listener α
  | .act action => l.step action
  | .breakOff =>
    match l.thread with
    | .recording _ => { l with thread := .ended }
    | _ => l

def after (l : Listener α) (turns : List ListenerTurn) : Listener α :=
  turns.foldl takeTurn l

/-- The calls of one turn. -/
def callsOf (l : Listener α) (turn : ListenerTurn) : List EndpointCall :=
  (match turn, l.thread with
    | .act (.receive _), .receiving => [.receive]
    | _, _ => []) ++
  ((l.takeTurn turn).teardown.drop l.teardown.length).map .teardown

/-- The calls of some turns, in their order. -/
def calls (l : Listener α) : List ListenerTurn → List EndpointCall
  | [] => []
  | turn :: rest => l.callsOf turn ++ calls (l.takeTurn turn) rest

/-- The turn changes something. -/
def IsDue (l : Listener α) (turn : ListenerTurn) : Prop :=
  l.takeTurn turn ≠ l

def AllDue (l : Listener α) : List ListenerTurn → Prop
  | [] => True
  | turn :: rest => l.IsDue turn ∧ AllDue (l.takeTurn turn) rest

theorem after_append (l : Listener α) (turns later : List ListenerTurn) :
    l.after (turns ++ later) = (l.after turns).after later :=
  List.foldl_append

theorem read_eq (l : Listener α) (count : Nat) :
    ∃ thread warnings, l.read count = { l with thread := thread, warnings := warnings } := by
  unfold read
  split
  all_goals
    dsimp only [warn]
    split
    · exact ⟨_, _, rfl⟩
    · exact ⟨_, _, rfl⟩

/-- A thread that finds the listener stopped ends. -/
theorem handle_eq (l : Listener α) (result : ReceiveResult) :
    ∃ thread warnings, l.handle result = { l with thread := thread, warnings := warnings } ∧
      (l.running = false → thread = .ended) := by
  unfold handle
  split
  · next running =>
    have going : l.running ≠ false := ne_false_of_eq_true running
    cases result with
    | count bytes =>
      obtain ⟨thread, warnings, same⟩ := l.read_eq bytes
      exact ⟨thread, warnings, same, fun stopped => absurd stopped going⟩
    | silence => exact ⟨_, _, rfl, fun stopped => absurd stopped going⟩
    | failure => exact ⟨_, _, rfl, fun stopped => absurd stopped going⟩
  · exact ⟨_, _, rfl, fun _ => rfl⟩

/-- What the thread does leaves the owner's part alone. -/
theorem takeTurn_thread {turn : ListenerTurn} (l : Listener α) (threads : turn.isOwners = false) :
    (l.takeTurn turn).running = l.running ∧ (l.takeTurn turn).stopping = l.stopping ∧
      (l.takeTurn turn).teardown = l.teardown := by
  cases turn with
  | breakOff =>
    simp only [takeTurn]
    split <;> exact ⟨rfl, rfl, rfl⟩
  | act action =>
    cases action with
    | receive receipt =>
      simp only [takeTurn, step]
      split
      · obtain ⟨buffer, result, same, -⟩ := l.shows_receive receipt
        rw [same]
        exact ⟨rfl, rfl, rfl⟩
      · exact ⟨rfl, rfl, rfl⟩
    | check =>
      simp only [takeTurn, step]
      split
      · next result _ =>
        obtain ⟨thread, warnings, same, -⟩ := l.handle_eq result
        rw [same]
        exact ⟨rfl, rfl, rfl⟩
      · exact ⟨rfl, rfl, rfl⟩
    | hand | record =>
      simp only [takeTurn, step]
      split <;> exact ⟨rfl, rfl, rfl⟩
    | beginStop | shutdown | join | close => contradiction

theorem takeTurn_ended {turn : ListenerTurn} (ended : l.thread = .ended) (threads : turn.isOwners = false) :
    l.takeTurn turn = l := by
  cases turn with
  | breakOff => simp [takeTurn, ended]
  | act action => cases action <;> first | contradiction | simp [takeTurn, step, ended]

theorem moves_of_owner {turn : ListenerTurn} (l : Listener α) (owners : turn.isOwners = true) :
    l.Moves (l.takeTurn turn) (l.callsOf turn) := by
  cases turn with
  | breakOff => contradiction
  | act action =>
    cases action with
    | beginStop =>
      simp only [takeTurn, callsOf, step]
      split
      · next idle =>
        split
        · next running => simpa using .begins running idle
        · simpa using .stays
      · simpa using .stays
    | shutdown fails =>
      simp only [takeTurn, callsOf, step]
      split
      · next due => cases fails <;> simpa using .shutsDown _ due
      · simpa using .stays
    | join =>
      simp only [takeTurn, callsOf, step]
      split
      · next due ended => simpa using .joins due ended
      · simpa using .stays
    | close fails =>
      simp only [takeTurn, callsOf, step]
      split
      · next due => cases fails <;> simpa using .closes _ due
      · simpa using .stays
    | receive | check | hand | record => contradiction

/-- The thread calls nothing but a receive, and that only while it waits for one. -/
theorem callsOf_thread {turn : ListenerTurn} (l : Listener α) (threads : turn.isOwners = false) :
    OnlyReceives (l.callsOf turn) ∧ (l.thread = .ended → l.callsOf turn = []) := by
  have kept := (l.takeTurn_thread threads).2.2
  simp only [callsOf, kept, List.drop_length, List.map_nil, List.append_nil]
  split
  · next receiving =>
    refine ⟨fun call member => List.mem_singleton.mp member, fun ended => ?_⟩
    exact nomatch ended.symm.trans receiving
  · exact ⟨nofun, fun _ => rfl⟩

/-- A turn of the thread does not move the teardown on. -/
theorem TearsDown.thread {turn : ListenerTurn} (tears : l.TearsDown made) (threads : turn.isOwners = false) :
    (l.takeTurn turn).TearsDown (made ++ l.callsOf turn) := by
  obtain ⟨running, stopping, -⟩ := l.takeTurn_thread threads
  obtain ⟨receives, silent⟩ := l.callsOf_thread threads
  cases tears with
  | runs runs idle before =>
    exact .runs (running.trans runs) (stopping.trans idle) (before.append receives)
  | begins stopped begun before =>
    exact .begins (running.trans stopped) (stopping.trans begun) (before.append receives)
  | joins stopped joining before between =>
    rw [List.append_assoc, List.cons_append]
    exact .joins (running.trans stopped) (stopping.trans joining) before (between.append receives)
  | closes stopped closing ended before between =>
    rw [takeTurn_ended ended threads, silent ended, List.append_nil]
    exact .closes stopped closing ended before between
  | finished stopped idle ended before between =>
    rw [takeTurn_ended ended threads, silent ended, List.append_nil]
    exact .finished stopped idle ended before between

theorem TearsDown.turn (tears : l.TearsDown made) (turn : ListenerTurn) :
    (l.takeTurn turn).TearsDown (made ++ l.callsOf turn) := by
  cases owners : turn.isOwners with
  | true => exact tears.move (l.moves_of_owner owners)
  | false => exact tears.thread owners

theorem TearsDown.ended_of_close {turn : ListenerTurn} (tears : l.TearsDown made)
    (closing : .teardown .close ∈ l.callsOf turn) : l.thread = .ended := by
  cases owners : turn.isOwners with
  | true => exact (l.moves_of_owner owners).ended_of_close tears closing
  | false => exact nomatch (l.callsOf_thread owners).1 _ closing

theorem TearsDown.run (tears : l.TearsDown made) (turns : List ListenerTurn) :
    (l.after turns).TearsDown (made ++ l.calls turns) := by
  induction turns generalizing l made with
  | nil =>
    rw [calls, List.append_nil]
    exact tears
  | cons turn rest ih =>
    have later := ih (tears.turn turn)
    rw [List.append_assoc] at later
    exact later

/-- After a teardown nothing is due. -/
theorem HasStopped.takeTurn (stopped : l.HasStopped) (ended : l.thread = .ended) (turn : ListenerTurn) :
    l.takeTurn turn = l ∧ l.callsOf turn = [] := by
  cases owners : turn.isOwners with
  | true => exact (l.moves_of_owner owners).of_stopped stopped
  | false => exact ⟨takeTurn_ended ended owners, (l.callsOf_thread owners).2 ended⟩

theorem HasStopped.after (stopped : l.HasStopped) (ended : l.thread = .ended) (later : List ListenerTurn) :
    l.after later = l ∧ l.calls later = [] := by
  induction later with
  | nil => exact ⟨rfl, rfl⟩
  | cons turn rest ih =>
    obtain ⟨same, silent⟩ := stopped.takeTurn ended turn
    rw [Listener.after, List.foldl_cons, calls, same, silent]
    exact ih

theorem running_turn (stopped : l.running = false) (turn : ListenerTurn) : (l.takeTurn turn).running = false := by
  cases owners : turn.isOwners with
  | true => exact (l.moves_of_owner owners).running stopped
  | false => exact (l.takeTurn_thread owners).1.trans stopped

theorem running_after (stopped : l.running = false) (later : List ListenerTurn) :
    (l.after later).running = false := by
  induction later generalizing l with
  | nil => exact stopped
  | cons turn rest ih => exact ih (running_turn stopped turn)

/-- A stop that begins finds or leaves the listener stopped. -/
theorem TearsDown.begun (tears : l.TearsDown made) : (l.takeTurn (.act .beginStop)).running = false := by
  cases tears with
  | runs running idle => simp [takeTurn, step, running, idle]
  | begins stopped | joins stopped | closes stopped | finished stopped => exact running_turn stopped _

/-- A thread that has been told to end does not receive again after it has looked. -/
theorem turnsLeft_thread (stopped : l.running = false) {turn : ListenerTurn} (threads : turn.isOwners = false)
    (due : l.IsDue turn) : (l.takeTurn turn).thread.turnsLeft < l.thread.turnsLeft := by
  unfold IsDue at due
  cases turn with
  | breakOff =>
    simp only [takeTurn] at due ⊢
    cases thread : l.thread with
    | recording count => simp [ListenerThread.turnsLeft]
    | receiving | received | handing | ended => simp [thread] at due
  | act action =>
    cases action with
    | receive receipt =>
      simp only [takeTurn, step] at due ⊢
      cases thread : l.thread with
      | receiving =>
        obtain ⟨buffer, result, same, -⟩ := l.shows_receive receipt
        simp [same, ListenerThread.turnsLeft]
      | received | handing | recording | ended => simp [thread] at due
    | check =>
      simp only [takeTurn, step] at due ⊢
      cases thread : l.thread with
      | received result =>
        obtain ⟨thread, warnings, same, ends⟩ := l.handle_eq result
        simp [same, ends stopped, ListenerThread.turnsLeft]
      | receiving | handing | recording | ended => simp [thread] at due
    | hand =>
      simp only [takeTurn, step] at due ⊢
      cases thread : l.thread with
      | handing message count => simp [ListenerThread.turnsLeft]
      | receiving | received | recording | ended => simp [thread] at due
    | record =>
      simp only [takeTurn, step] at due ⊢
      cases thread : l.thread with
      | recording count => simp [ListenerThread.turnsLeft]
      | receiving | received | handing | ended => simp [thread] at due
    | beginStop | shutdown | join | close => contradiction

/-- Once a stop has begun, each turn that is due brings its return nearer. -/
theorem turnsLeft_turn (stopped : l.running = false) {turn : ListenerTurn} (due : l.IsDue turn) :
    (l.takeTurn turn).turnsLeft < l.turnsLeft := by
  cases owners : turn.isOwners with
  | true => exact (l.moves_of_owner owners).turnsLeft_lt stopped due
  | false =>
    unfold turnsLeft
    rw [(l.takeTurn_thread owners).2.1]
    exact Nat.add_lt_add_right (turnsLeft_thread stopped owners due) _

theorem length_le (stopped : l.running = false) {later : List ListenerTurn} (due : l.AllDue later) :
    later.length ≤ l.turnsLeft := by
  induction later generalizing l with
  | nil => exact Nat.zero_le _
  | cons turn rest ih =>
    obtain ⟨first, others⟩ := due
    have shorter := ih (running_turn stopped turn) others
    have nearer := turnsLeft_turn stopped first
    rw [List.length_cons]
    omega

/-- Until a stop has returned some turn is due. -/
theorem exists_due (stopped : l.running = false) (unfinished : l.stopping ≠ .idle) : ∃ turn, l.IsDue turn := by
  have moved (turn : ListenerTurn) (phase : (l.takeTurn turn).stopping ≠ l.stopping) : ∃ turn, l.IsDue turn :=
    ⟨turn, fun same => phase (congrArg Listener.stopping same)⟩
  have went (turn : ListenerTurn) (phase : (l.takeTurn turn).thread ≠ l.thread) : ∃ turn, l.IsDue turn :=
    ⟨turn, fun same => phase (congrArg Listener.thread same)⟩
  cases stopping : l.stopping with
  | idle => contradiction
  | shuttingDown => exact moved (.act (.shutdown false)) (by simp [takeTurn, step, stopping])
  | closing => exact moved (.act (.close false)) (by simp [takeTurn, step, stopping])
  | joining =>
    cases thread : l.thread with
    | ended => exact moved (.act .join) (by simp [takeTurn, step, stopping, thread])
    | receiving => exact went (.act (.receive .silence)) (by simp [takeTurn, step, receive, thread])
    | received result =>
      obtain ⟨_, _, same, ends⟩ := l.handle_eq result
      exact went (.act .check) (by simp [takeTurn, step, thread, same, ends stopped])
    | handing message count => exact went (.act .hand) (by simp [takeTurn, step, thread])
    | recording count => exact went (.act .record) (by simp [takeTurn, step, thread])

theorem hasStopped_of_settled (stopped : l.running = false) (settled : ∀ turn, ¬ l.IsDue turn) : l.HasStopped := by
  refine ⟨stopped, ?_⟩
  by_cases finished : l.stopping = .idle
  · exact finished
  · obtain ⟨turn, due⟩ := exists_due stopped finished
    exact absurd due (settled turn)

/-- In every run the endpoint is shut down once and closed once, in this order, and closed only when the thread has
ended, so that nothing is received from it afterwards. When the first stop has returned, nothing is called, handed on
or recorded any more; and every stop returns, also the one at the end of a listener's life, whatever turns come
between. -/
theorem tears_down_once (bufferSize : Nat) (audits : Bool) (turns : List ListenerTurn) :
    let opened : Listener α := .opened bufferSize audits
    let l := opened.after turns
    l.TearsDown (opened.calls turns) ∧
      (∀ turn, .teardown .close ∈ l.callsOf turn → l.thread = .ended) ∧
      (l.HasStopped →
        (∃ before between, OnlyReceives before ∧ OnlyReceives between ∧
          opened.calls turns = before ++ .teardown .shutdown :: (between ++ [.teardown .close])) ∧
        ∀ later, l.after later = l ∧ l.calls later = []) ∧
      let dropped := opened.after (turns ++ [.act .beginStop])
      ∀ later, dropped.AllDue later → later.length ≤ 7 ∧
        ((∀ turn, ¬ (dropped.after later).IsDue turn) → (dropped.after later).HasStopped) := by
  intro opened l
  have tears : l.TearsDown (opened.calls turns) := (TearsDown.opened bufferSize audits).run turns
  refine ⟨tears, fun turn closing => tears.ended_of_close closing, fun stopped => ?_, ?_⟩
  · obtain ⟨ended, shape⟩ := tears.of_stopped stopped
    exact ⟨shape, stopped.after ended⟩
  · -- Dropping the listener stops it once more; an earlier stop may still be under way or have returned.
    intro dropped later due
    have last : dropped = l.takeTurn (.act .beginStop) := after_append ..
    have begun : dropped.running = false := by
      rw [last]
      exact tears.begun
    exact ⟨Nat.le_trans (length_le begun due) dropped.turnsLeft_le, hasStopped_of_settled (running_after begun later)⟩

end Listener

end Onboard
