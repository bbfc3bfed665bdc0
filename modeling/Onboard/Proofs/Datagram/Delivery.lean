import Mathlib.Data.List.Induction
import Onboard.Proofs.Datagram.Listener

/-! What a listener hands on over any run. The receipts after which it is still found running are read one by one, in
the order in which they came; each that holds a message is handed on and recorded once, and nothing but a stop ends
this. -/

namespace Onboard

/-- What the thread of a listener meets with: a receipt, or the answer whether the listener still runs. -/
inductive ListenerEvent where
  | received (receipt : Receipt)
  | checked (running : Bool)
  deriving DecidableEq

/-- The receipts after which the listener was found running. -/
def acceptedReceipts : List ListenerEvent → List Receipt
  | .received receipt :: .checked true :: rest => receipt :: acceptedReceipts rest
  | _ :: rest => acceptedReceipts rest
  | [] => []

theorem acceptedReceipts_append (events : List ListenerEvent) (receipt : Receipt) (rest : List ListenerEvent) :
    acceptedReceipts (events ++ .received receipt :: rest) =
      acceptedReceipts events ++ acceptedReceipts (.received receipt :: rest) := by
  fun_induction acceptedReceipts events with
  | case1 r before ih => exact congrArg (r :: ·) ih
  | case2 first before other ih =>
    rw [← ih]
    cases before with
    | nil => exact acceptedReceipts.eq_2 _ _ nofun
    | cons second before =>
      refine acceptedReceipts.eq_2 _ _ fun r later isFirst isSecond => other r before isFirst ?_
      rw [(List.cons.inj isSecond).1]
  | case3 => rfl

/-- The message that a thread is about to hand on. -/
def ListenerThread.message? : ListenerThread α → Option α
  | .handing message _ => some message
  | _ => none

/-- The bytes at the start of this buffer that a thread is about to record. -/
def ListenerThread.bytes? (buffer : Bytes) : ListenerThread α → Option Bytes
  | .handing _ count | .recording count => some (buffer.take count)
  | _ => none

namespace Listener

variable {α : Type} {l : Listener α}

def event? (l : Listener α) : ListenerAction → Option ListenerEvent
  | .receive receipt =>
    match l.thread with
    | .receiving => some (.received receipt)
    | _ => none
  | .check =>
    match l.thread with
    | .received _ => some (.checked l.running)
    | _ => none
  | _ => none

def history [Wire α] (l : Listener α) : List ListenerAction → List ListenerEvent
  | [] => []
  | action :: rest => (l.event? action).toList ++ history (l.step action) rest

/-- What is to be handed on after some events. -/
def deliveries [Wire α] (bufferSize : Nat) (events : List ListenerEvent) : List (α × Bytes) :=
  (acceptedReceipts events).filterMap (delivery? bufferSize)

/-- The listener has handed on and recorded, each once and in order, what the events that its thread met with ask
for, but for the one at hand. -/
structure Follows [Wire α] (size : Nat) (audits : Bool) (events : List ListenerEvent) (l : Listener α) : Prop where
  bufferSize : l.bufferSize = size
  auditing : l.audits = audits
  messages : l.messages ++ l.thread.message?.toList = (deliveries size events).map Prod.fst
  recorded : l.recorded ++ (if audits then (l.thread.bytes? l.buffer).toList else []) =
    if audits then (deliveries size events : List (α × Bytes)).map Prod.snd else []
  received : ∀ result, l.thread = .received result → ∃ before receipt, events = before ++ [.received receipt] ∧
    l.Shows receipt result
  ended : l.thread = .ended ↔ .checked false ∈ events

theorem history_append [Wire α] (l : Listener α) (a b : List ListenerAction) :
    l.history (a ++ b) = l.history a ++ (l.run a).history b := by
  induction a generalizing l with
  | nil => rfl
  | cons first rest ih =>
    rw [List.cons_append, history, history, ih, List.append_assoc]
    rfl

theorem history_concat [Wire α] (l : Listener α) (actions : List ListenerAction) (action : ListenerAction) :
    l.history (actions ++ [action]) = l.history actions ++ ((l.run actions).event? action).toList := by
  rw [history_append]
  exact congrArg (l.history actions ++ ·) (List.append_nil _)

theorem follows_opened [Wire α] (bufferSize : Nat) (audits : Bool) :
    Follows (max bufferSize 1) audits [] (opened bufferSize audits : Listener α) :=
  ⟨rfl, rfl, rfl, by cases audits <;> rfl, nofun, ⟨nofun, nofun⟩⟩

theorem deliveries_received [Wire α] (size : Nat) (events : List ListenerEvent) (receipt : Receipt) :
    (deliveries size (events ++ [.received receipt]) : List (α × Bytes)) = deliveries size events := by
  rw [deliveries, acceptedReceipts_append, deliveries]
  exact congrArg _ (List.append_nil _)

theorem deliveries_checked [Wire α] (size : Nat) (events : List ListenerEvent) (receipt : Receipt) (running : Bool) :
    (deliveries size (events ++ [.received receipt] ++ [.checked running]) : List (α × Bytes)) =
      deliveries size events ++ if running then (delivery? size receipt).toList else [] := by
  rw [deliveries, List.append_assoc, List.singleton_append, acceptedReceipts_append, List.filterMap_append]
  refine congrArg (deliveries size events ++ ·) ?_
  cases running with
  | false => rfl
  | true =>
    change List.filterMap _ [receipt] = _
    rw [if_pos rfl]
    cases delivery : (delivery? size receipt : Option (α × Bytes)) with
    | none => exact List.filterMap_cons_none delivery
    | some d => exact List.filterMap_cons_some delivery

/-- The thread that has read a message is about to hand it on and to record it. -/
theorem HasRead.phase {delivery : Option (α × Bytes)} {m : Listener α} (read : HasRead l delivery m) :
    m.thread.message? = delivery.map Prod.fst ∧ m.thread.bytes? m.buffer = delivery.map Prod.snd ∧
      (∀ result, m.thread ≠ .received result) ∧ m.thread ≠ .ended := by
  cases delivery with
  | none =>
    rw [read.nothing rfl]
    exact ⟨rfl, rfl, nofun, nofun⟩
  | some d =>
    obtain ⟨count, thread, shows⟩ := read.handing d rfl
    rw [thread]
    exact ⟨rfl, congrArg some shows, nofun, nofun⟩

namespace Follows

variable [Wire α] {size : Nat} {audits : Bool} {events : List ListenerEvent}

theorem of_same (follows : l.Follows size audits events) {m : Listener α} (bufferSize : m.bufferSize = l.bufferSize)
    (auditing : m.audits = l.audits) (buffer : m.buffer = l.buffer) (thread : m.thread = l.thread)
    (messages : m.messages = l.messages) (recorded : m.recorded = l.recorded) : m.Follows size audits events := by
  obtain ⟨_, _, _, _, _, _, _, _, _, _⟩ := m
  cases bufferSize
  cases auditing
  cases buffer
  cases thread
  cases messages
  cases recorded
  exact ⟨follows.bufferSize, follows.auditing, follows.messages, follows.recorded, follows.received, follows.ended⟩

theorem receive (follows : l.Follows size audits events) (receiving : l.thread = .receiving) (receipt : Receipt) :
    (l.receive receipt).Follows size audits (events ++ [.received receipt]) := by
  obtain ⟨buffer, result, same, shown⟩ := l.shows_receive receipt
  have messages := follows.messages
  have recorded := follows.recorded
  have running : .checked false ∉ events := fun member => nomatch receiving.symm.trans (follows.ended.mpr member)
  rw [receiving] at messages recorded
  rw [same] at shown ⊢
  refine ⟨follows.bufferSize, follows.auditing, ?_, ?_, ?_, ?_⟩
  · rw [deliveries_received]
    exact messages
  · rw [deliveries_received]
    exact recorded
  · intro _ received
    cases received
    exact ⟨events, receipt, rfl, shown⟩
  · simp [running]

theorem check (follows : l.Follows size audits events) (received : l.thread = .received result) :
    (l.handle result).Follows size audits (events ++ [.checked l.running]) := by
  have messages := follows.messages
  have recorded := follows.recorded
  have noEnd : .checked false ∉ events := fun member => nomatch received.symm.trans (follows.ended.mpr member)
  obtain ⟨before, receipt, rfl, shown⟩ := follows.received result received
  have bufferSize := follows.bufferSize
  have auditing := follows.auditing
  rw [deliveries_received, received] at messages recorded
  simp only [ListenerThread.message?, ListenerThread.bytes?, Option.toList_none, List.append_nil, ite_self]
    at messages recorded
  cases running : l.running with
  | false =>
    have ended : l.handle result = { l with thread := .ended } := by simp [handle, running]
    rw [ended]
    refine ⟨bufferSize, auditing, ?_, ?_, nofun, by simp⟩
    · rw [deliveries_checked]
      simpa [ListenerThread.message?] using messages
    · rw [deliveries_checked]
      simpa [ListenerThread.bytes?] using recorded
  | true =>
    have read := shown.handled running
    rw [bufferSize] at read
    obtain ⟨message, bytes, notReceived, notEnded⟩ := read.phase
    refine ⟨read.bufferSize.trans bufferSize, read.audits.trans auditing, ?_, ?_,
      fun r same => absurd same (notReceived r), iff_of_false notEnded (by simpa using noEnd)⟩
    · rw [deliveries_checked, message, read.messages, messages]
      cases (delivery? size receipt : Option (α × Bytes)) <;> simp
    · rw [deliveries_checked, bytes, read.recorded, recorded]
      cases (delivery? size receipt : Option (α × Bytes)) <;> cases audits <;> simp

theorem hand (follows : l.Follows size audits events) (handing : l.thread = .handing message count) :
    Follows size audits events { l with thread := .recording count, messages := l.messages ++ [message] } := by
  have messages := follows.messages
  have recorded := follows.recorded
  have ended := follows.ended
  rw [handing] at messages recorded ended
  refine ⟨follows.bufferSize, follows.auditing, ?_, recorded, nofun, ?_⟩
  · rw [← messages]
    exact List.append_nil _
  · rw [← ended]
    exact ⟨nofun, nofun⟩

theorem record (follows : l.Follows size audits events) (recording : l.thread = .recording count) :
    Follows size audits events { l with
      thread := .receiving
      recorded := l.recorded ++ if l.audits then [l.buffer.take count] else [] } := by
  have messages := follows.messages
  have recorded := follows.recorded
  have ended := follows.ended
  rw [recording] at messages recorded ended
  refine ⟨follows.bufferSize, follows.auditing, messages, ?_, nofun, ?_⟩
  · rw [← recorded, follows.auditing]
    cases audits <;> exact List.append_nil _
  · rw [← ended]
    exact ⟨nofun, nofun⟩

/-- One action, of the thread or of who stops it. -/
theorem step (follows : l.Follows size audits events) (action : ListenerAction) :
    (l.step action).Follows size audits (events ++ (l.event? action).toList) := by
  cases action with
  | receive receipt =>
    cases thread : l.thread with
    | receiving => simpa only [Listener.step, event?, thread, Option.toList_some] using follows.receive thread receipt
    | _ => simpa only [Listener.step, event?, thread, Option.toList_none, List.append_nil] using follows
  | check =>
    cases thread : l.thread with
    | received result => simpa only [Listener.step, event?, thread, Option.toList_some] using follows.check thread
    | _ => simpa only [Listener.step, event?, thread, Option.toList_none, List.append_nil] using follows
  | hand =>
    rw [show events ++ (l.event? .hand).toList = events from List.append_nil _]
    cases thread : l.thread with
    | handing message count => simpa only [Listener.step, thread] using follows.hand thread
    | _ => simpa only [Listener.step, thread] using follows
  | record =>
    rw [show events ++ (l.event? .record).toList = events from List.append_nil _]
    cases thread : l.thread with
    | recording count => simpa only [Listener.step, thread] using follows.record thread
    | _ => simpa only [Listener.step, thread] using follows
  | beginStop =>
    rw [show events ++ (l.event? .beginStop).toList = events from List.append_nil _, Listener.step]
    split
    · split <;> exact follows.of_same rfl rfl rfl rfl rfl rfl
    · exact follows
  | shutdown fails =>
    rw [show events ++ (l.event? (.shutdown fails)).toList = events from List.append_nil _, Listener.step]
    split
    · cases fails <;> exact follows.of_same rfl rfl rfl rfl rfl rfl
    · exact follows
  | join =>
    rw [show events ++ (l.event? .join).toList = events from List.append_nil _, Listener.step]
    split
    · exact follows.of_same rfl rfl rfl rfl rfl rfl
    · exact follows
  | close fails =>
    rw [show events ++ (l.event? (.close fails)).toList = events from List.append_nil _, Listener.step]
    split
    · cases fails <;> exact follows.of_same rfl rfl rfl rfl rfl rfl
    · exact follows

theorem run (bufferSize : Nat) (audits : Bool) (actions : List ListenerAction) :
    Follows (max bufferSize 1) audits ((opened bufferSize audits : Listener α).history actions)
      ((opened bufferSize audits : Listener α).run actions) := by
  induction actions using List.reverseRecOn with
  | nil => exact follows_opened bufferSize audits
  | append_singleton actions action ih =>
    rw [history_concat, run_append]
    exact ih.step action

end Follows

/-- Whatever was received, the thread of a listener that runs goes on. -/
theorem handle_running [Wire α] (running : l.running = true) (handled : l.handle result = m) :
    m.running = true ∧ (m.thread = .receiving ∨ ∃ message count, m.thread = .handing message count) := by
  subst handled
  unfold handle
  rw [if_pos running]
  cases result with
  | count n =>
    have read := l.hasRead n
    refine ⟨read.running.trans running, ?_⟩
    cases message : (Wire.read? (l.buffer.take n) : Option α) with
    | none => exact .inl (read.nothing (by rw [message]; rfl))
    | some s =>
      obtain ⟨count, thread, -⟩ := read.handing (s, _) (by rw [message]; rfl)
      exact .inr ⟨s, count, thread⟩
  | silence => exact ⟨running, .inl rfl⟩
  | failure => exact ⟨running, .inl rfl⟩

theorem running_step [Wire α] (running : l.running = true) (other : action ≠ .beginStop) :
    (l.step action).running = true := by
  cases action with
  | receive receipt =>
    obtain ⟨_, _, same, -⟩ := l.shows_receive receipt
    rw [step]
    split
    · rw [same]
      exact running
    · exact running
  | check =>
    rw [step]
    split
    · exact (handle_running running rfl).1
    · exact running
  | hand =>
    rw [step]
    split <;> exact running
  | record =>
    rw [step]
    split <;> exact running
  | beginStop => contradiction
  | shutdown fails =>
    rw [step]
    split
    · cases fails <;> exact running
    · exact running
  | join =>
    rw [step]
    split <;> exact running
  | close fails =>
    rw [step]
    split
    · cases fails <;> exact running
    · exact running

/-- Before a stop begins, every look finds the listener running. -/
theorem unstopped [Wire α] (running : l.running = true) (noStop : .beginStop ∉ actions) :
    (l.run actions).running = true ∧ .checked false ∉ l.history actions := by
  induction actions generalizing l with
  | nil => exact ⟨running, nofun⟩
  | cons action rest ih =>
    have other : action ≠ .beginStop := fun same => noStop (same ▸ List.mem_cons_self)
    obtain ⟨runs, checks⟩ := ih (running_step running other) fun member => noStop (List.mem_cons_of_mem _ member)
    refine ⟨runs, fun member => ?_⟩
    rcases List.mem_append.mp member with here | further
    · unfold event? at here
      split at here
      · split at here <;> simp at here
      · split at here <;> simp [running] at here
      · simp at here
    · exact checks further

/-- The thread ends what it has begun. -/
theorem waits_settled [Wire α] (running : l.running = true) (going : l.thread ≠ .ended) :
    ∃ size, Waits size (l.run [.check, .hand, .record]) := by
  have phases : l.run [.check, .hand, .record] = ((l.step .check).step .hand).step .record := rfl
  rw [phases]
  have checked : (l.step .check).running = true ∧ ((l.step .check).thread = .receiving ∨
      (∃ message count, (l.step .check).thread = .handing message count) ∨
        ∃ count, (l.step .check).thread = .recording count) := by
    cases thread : l.thread with
    | received result =>
      have same : l.step .check = l.handle result := by simp only [step, thread]
      rw [same]
      exact (handle_running running rfl).imp_right fun phase => phase.imp_right .inl
    | ended => contradiction
    | receiving =>
      have same : l.step .check = l := by simp only [step, thread]
      rw [same]
      exact ⟨running, .inl thread⟩
    | handing message count =>
      have same : l.step .check = l := by simp only [step, thread]
      rw [same]
      exact ⟨running, .inr (.inl ⟨message, count, thread⟩)⟩
    | recording count =>
      have same : l.step .check = l := by simp only [step, thread]
      rw [same]
      exact ⟨running, .inr (.inr ⟨count, thread⟩)⟩
  generalize l.step .check = m at checked
  obtain ⟨running, thread | ⟨message, count, thread⟩ | ⟨count, thread⟩⟩ := checked
  · have same : (m.step .hand).step .record = m := by simp only [step, thread]
    rw [same]
    exact ⟨_, running, thread, rfl⟩
  · have same : (m.step .hand).step .record = { m with
        thread := .receiving
        messages := m.messages ++ [message]
        recorded := m.recorded ++ if m.audits then [m.buffer.take count] else [] } := by simp only [step, thread]
    rw [same]
    exact ⟨_, running, rfl, rfl⟩
  · have same : (m.step .hand).step .record = { m with
        thread := .receiving
        recorded := m.recorded ++ if m.audits then [m.buffer.take count] else [] } := by simp only [step, thread]
    rw [same]
    exact ⟨_, running, rfl, rfl⟩

theorem Waits.history_handling [Wire α] (waits : Waits size l) (receipt : Receipt) :
    l.history (handling receipt) = [.received receipt, .checked true] := by
  obtain ⟨running, thread, -⟩ := waits
  obtain ⟨buffer, result, same, -⟩ := l.shows_receive receipt
  have received : l.step (.receive receipt) = l.receive receipt := by simp only [step, thread]
  simp only [handling, history, received, same, event?, thread, running, Option.toList_some, Option.toList_none,
    List.append_nil, List.singleton_append]

/-- Each receipt is accepted, one after the other. -/
theorem Waits.fed [Wire α] (waits : Waits size l) (receipts : List Receipt) :
    Waits size (l.run (receipts.flatMap handling)) ∧ ∀ events,
      acceptedReceipts (events ++ l.history (receipts.flatMap handling)) = acceptedReceipts events ++ receipts := by
  induction receipts generalizing l with
  | nil => exact ⟨waits, fun events => by simp [history]⟩
  | cons receipt rest ih =>
    obtain ⟨last, later⟩ := ih (waits.handed receipt).2
    refine ⟨last, fun events => ?_⟩
    rw [List.flatMap_cons, history_append, waits.history_handling, ← List.append_assoc]
    refine (later _).trans ?_
    rw [acceptedReceipts_append, List.append_assoc]
    rfl

/-- A listener follows, over any run, the events that its thread meets with. Its thread ends only after a stop; as long
as there is none, whatever comes next is accepted, and then the thread waits for more. -/
theorem delivers [Wire α] (bufferSize : Nat) (audits : Bool) (actions : List ListenerAction) :
    let opened : Listener α := .opened bufferSize audits
    (opened.run actions).Follows (max bufferSize 1) audits (opened.history actions) ∧
      ((opened.run actions).thread = .ended → .beginStop ∈ actions) ∧
      (.beginStop ∉ actions → ∀ receipts,
        let settled := actions ++ [.check, .hand, .record]
        let fed := settled ++ receipts.flatMap handling
        (opened.run fed).thread = .receiving ∧
          acceptedReceipts (opened.history fed) = acceptedReceipts (opened.history settled) ++ receipts) := by
  intro opened
  have follows : (opened.run actions).Follows (max bufferSize 1) audits (opened.history actions) := .run ..
  have goes (noStop : .beginStop ∉ actions) :
      (opened.run actions).running = true ∧ (opened.run actions).thread ≠ .ended :=
    (unstopped rfl noStop).imp_right fun checks ended => checks (follows.ended.mp ended)
  refine ⟨follows, fun ended => ?_, fun noStop receipts => ?_⟩
  · by_contra noStop
    exact (goes noStop).2 ended
  · obtain ⟨running, going⟩ := goes noStop
    obtain ⟨_, waits⟩ := waits_settled running going
    rw [← run_append] at waits
    obtain ⟨last, later⟩ := waits.fed receipts
    intro settled fed
    refine ⟨?_, ?_⟩
    · rw [run_append]
      exact last.thread
    · rw [history_append]
      exact later _

end Listener

end Onboard
