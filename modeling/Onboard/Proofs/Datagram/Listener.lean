import Onboard.Datagram.Listener

/-! What a listener's thread makes of one receipt: it hands on the message, if there is one to read in the part that
fits the buffer, and waits for the next receipt. Bytes that an earlier datagram left in the buffer play no part. -/

namespace Onboard

namespace Listener

variable {α : Type} {l : Listener α}

/-- The message in a receipt, as a buffer of this size shows it. -/
def message? [Wire α] (bufferSize : Nat) : Receipt → Option α
  | .datagram bytes => Wire.read? (bytes.take bufferSize)
  | _ => none

/-- The message in a receipt with the bytes that it came in, as far as they fit the buffer. -/
def delivery? [Wire α] (bufferSize : Nat) : Receipt → Option (α × Bytes)
  | .datagram bytes => (Wire.read? (bytes.take bufferSize)).map (·, bytes.take bufferSize)
  | _ => none

/-- The result of a receive and the buffer show a receipt, up to the size of the buffer. -/
def Shows (l : Listener α) : Receipt → ReceiveResult → Prop
  | .datagram bytes, .count count => l.buffer.take count = bytes.take l.bufferSize
  | .silence, .silence => True
  | .failure, .failure => True
  | _, _ => False

/-- The thread waits for the next receipt, and nobody has stopped it. -/
structure Waits (count : Nat) (l : Listener α) : Prop where
  running : l.running = true
  thread : l.thread = .receiving
  bufferSize : l.bufferSize = count

/-- The thread has read a message, or waits again if there was none. -/
structure HasRead (l : Listener α) (delivery : Option (α × Bytes)) (m : Listener α) : Prop where
  running : m.running = l.running
  bufferSize : m.bufferSize = l.bufferSize
  audits : m.audits = l.audits
  messages : m.messages = l.messages
  recorded : m.recorded = l.recorded
  nothing : delivery = none → m.thread = .receiving
  handing : ∀ d, delivery = some d → ∃ count, m.thread = .handing d.1 count ∧ m.buffer.take count = d.2

theorem message?_eq [Wire α] (bufferSize : Nat) (receipt : Receipt) :
    (message? bufferSize receipt : Option α) = (delivery? bufferSize receipt).map Prod.fst := by
  cases receipt with
  | datagram bytes =>
    rw [message?, delivery?, Option.map_map]
    exact (congrFun Option.map_id _).symm
  | silence => rfl
  | failure => rfl

theorem waits_opened (bufferSize : Nat) (audits : Bool) :
    Waits (max bufferSize 1) (opened bufferSize audits : Listener α) :=
  ⟨rfl, rfl, rfl⟩

/-- What stands behind the datagram in the buffer is not looked at. -/
theorem shows_receive (l : Listener α) (receipt : Receipt) :
    ∃ buffer result, l.receive receipt = { l with buffer := buffer, thread := .received result } ∧
      (l.receive receipt).Shows receipt result := by
  cases receipt with
  | datagram bytes =>
    refine ⟨_, .count (min bytes.length l.bufferSize), rfl, ?_⟩
    change (bytes.take l.bufferSize ++ _).take _ = bytes.take l.bufferSize
    rw [Nat.min_comm, ← List.length_take, List.take_left]
  | silence => exact ⟨_, .silence, rfl, trivial⟩
  | failure => exact ⟨_, .failure, rfl, trivial⟩

theorem hasRead [Wire α] (l : Listener α) (count : Nat) :
    HasRead l ((Wire.read? (l.buffer.take count)).map (·, l.buffer.take count)) (l.read count) := by
  unfold read
  cases message : (Wire.read? (l.buffer.take count) : Option α) with
  | none =>
    split
    all_goals
      dsimp only [warn]
      rw [message]
      exact ⟨rfl, rfl, rfl, rfl, rfl, fun _ => rfl, nofun⟩
  | some s =>
    split
    all_goals
      dsimp only [warn]
      rw [message]
      exact ⟨rfl, rfl, rfl, rfl, rfl, nofun, fun d same => Option.some.inj same ▸ ⟨count, rfl, rfl⟩⟩

theorem Shows.handled [Wire α] (shown : l.Shows receipt result) (running : l.running = true) :
    HasRead l (delivery? l.bufferSize receipt) (l.handle result) := by
  unfold handle
  rw [if_pos running]
  cases receipt <;> cases result <;> try contradiction
  next bytes count =>
    have read := l.hasRead count
    rw [show l.buffer.take count = bytes.take l.bufferSize from shown] at read
    exact read
  · exact ⟨rfl, rfl, rfl, rfl, rfl, fun _ => rfl, nofun⟩
  · exact ⟨rfl, rfl, rfl, rfl, rfl, fun _ => rfl, nofun⟩

theorem Waits.checked [Wire α] (waits : Waits size l) (receipt : Receipt) :
    HasRead l (delivery? size receipt) ((l.step (.receive receipt)).step .check) := by
  obtain ⟨running, thread, rfl⟩ := waits
  have received : l.step (.receive receipt) = l.receive receipt := by simp only [step, thread]
  obtain ⟨buffer, result, same, shown⟩ := l.shows_receive receipt
  rw [received]
  rw [same] at shown ⊢
  have read := shown.handled running
  exact ⟨read.running, read.bufferSize, read.audits, read.messages, read.recorded, read.nothing, read.handing⟩

/-- The message is handed on before the datagram is recorded; then the thread waits again. -/
theorem Waits.handed [Wire α] (waits : Waits size l) (receipt : Receipt) :
    (l.run [.receive receipt, .check, .hand]).messages = l.messages ++ (message? size receipt : Option α).toList ∧
      Waits size ((l.run [.receive receipt, .check, .hand]).step .record) := by
  have read := waits.checked receipt
  have phases : l.run [.receive receipt, .check, .hand] = ((l.step (.receive receipt)).step .check).step .hand := rfl
  rw [phases, message?_eq]
  generalize (l.step (.receive receipt)).step .check = m at read
  cases delivery : (delivery? size receipt : Option (α × Bytes)) with
  | none =>
    have thread := read.nothing delivery
    have handed : m.step .hand = m := by simp only [step, thread]
    have recorded : m.step .record = m := by simp only [step, thread]
    rw [handed, recorded, Option.map_none, Option.toList_none, List.append_nil]
    exact ⟨read.messages, read.running.trans waits.running, thread, read.bufferSize.trans waits.bufferSize⟩
  | some d =>
    obtain ⟨count, thread, -⟩ := read.handing d delivery
    have handed : m.step .hand = { m with thread := .recording count, messages := m.messages ++ [d.1] } := by
      simp only [step, thread]
    rw [handed]
    exact ⟨congrArg (· ++ [d.1]) read.messages, read.running.trans waits.running, rfl,
      read.bufferSize.trans waits.bufferSize⟩

theorem run_ended [Wire α] (ended : l.thread = .ended) (receipt : Receipt) :
    l.run [.receive receipt, .check, .hand] = l := by
  simp only [run, List.foldl_cons, List.foldl_nil, step, ended]

end Listener

end Onboard
