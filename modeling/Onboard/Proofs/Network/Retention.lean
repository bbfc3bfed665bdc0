import Onboard.Proofs.Network.RoundTrips

/-! What a buffer of round trips keeps, whatever has been recorded and echoed. It is always the latest part of all that
has come: a record that finds the buffer full makes the oldest one go, and an echo takes away the records up to the one
that it names, and those only. -/

namespace Onboard

/-- What is done with a buffer of round trips. -/
inductive TripStep where
  | record (r : RoundTripRecord)
  | resolve (number : UInt64) (statusSent : Float)
  deriving DecidableEq

namespace RoundTrips

def step (t : RoundTrips) : TripStep → RoundTrips
  | .record r => t.record r
  | .resolve number time => (t.resolve number time).2

def after (capacity : Nat) (steps : List TripStep) : RoundTrips :=
  steps.foldl step (withCapacity capacity)

/-- All that has been recorded, the oldest first. -/
def history (steps : List TripStep) : List RoundTripRecord :=
  steps.filterMap fun
    | .record r => some r
    | .resolve .. => none

/-- What an echo gives and leaves: without a record of its number nothing, and else the times of the first such record,
which goes with those before it. -/
inductive Resolves (t : RoundTrips) (number : UInt64) (time : Float) : Option RoundTrip → RoundTrips → Prop where
  | absent : (∀ r ∈ t.records, r.sequence ≠ number) → Resolves t number time none t
  | found {before later : List RoundTripRecord} {r : RoundTripRecord} :
      t.records = before ++ r :: later → (∀ q ∈ before, q.sequence ≠ number) → r.sequence = number →
        Resolves t number time (some ⟨number, r.aiSent, r.robotReceived, time⟩) { t with records := later }

/-- A buffer with room for so many records, which holds the latest of those that have come. -/
structure Retains (room : Nat) (recorded : List RoundTripRecord) (t : RoundTrips) : Prop where
  capacity : t.capacity = room
  suffix : t.records <:+ recorded
  few : t.records.length ≤ room

theorem resolves (t : RoundTrips) (number : UInt64) (time : Float) :
    Resolves t number time (t.resolve number time).1 (t.resolve number time).2 := by
  cases found : t.records.find? fun r => r.sequence = number with
  | none =>
    have others : ∀ r ∈ t.records, r.sequence ≠ number := by
      intro r member same
      exact List.find?_eq_none.mp found r member (decide_eq_true same)
    rw [resolve_absent others]
    exact .absent others
  | some r =>
    obtain ⟨named, before, later, split, passed⟩ := List.find?_eq_some_iff_append.mp found
    have same : r.sequence = number := of_decide_eq_true named
    have others : ∀ q ∈ before, q.sequence ≠ number := by
      intro q member
      simpa using passed q member
    rw [resolve_found split others same, same]
    exact .found split others same

theorem record_of_room {t : RoundTrips} (room : t.records.length < t.capacity) (r : RoundTripRecord) :
    t.record r = { t with records := t.records ++ [r] } := by
  have none : (t.records ++ [r]).length - t.capacity = 0 := by
    rw [List.length_append, List.length_singleton]
    omega
  unfold record
  dsimp only
  rw [none, List.drop_zero]

theorem record_of_full {t : RoundTrips} (some : 0 < t.capacity) (full : t.records.length = t.capacity)
    (r : RoundTripRecord) : t.record r = { t with records := t.records.tail ++ [r] } := by
  have one : (t.records ++ [r]).length - t.capacity = 1 := by
    rw [List.length_append, List.length_singleton]
    omega
  unfold record
  dsimp only
  rw [one, List.drop_append_of_le_length (by omega), List.drop_one]

namespace Retains
variable {room : Nat} {recorded : List RoundTripRecord} {t : RoundTrips}

theorem opened (capacity : Nat) : Retains (max 1 capacity) [] (withCapacity capacity) where
  capacity := rfl
  suffix := List.suffix_refl []
  few := Nat.zero_le _

theorem record (retains : Retains room recorded t) (r : RoundTripRecord) :
    Retains room (recorded ++ [r]) (t.record r) where
  capacity := retains.capacity
  suffix := by
    obtain ⟨gone, rfl⟩ := retains.suffix
    apply (t.record_suffix r).trans
    exact ⟨gone, (List.append_assoc ..).symm⟩
  few := by
    have few := retains.few
    have capacity := retains.capacity
    unfold RoundTrips.record
    simp only [List.length_drop, List.length_append, List.length_singleton]
    omega

theorem resolve (retains : Retains room recorded t) (number : UInt64) (time : Float) :
    Retains room recorded (t.resolve number time).2 where
  capacity := (t.capacity_settled true number time).trans retains.capacity
  suffix := (t.resolve_suffix number time).trans retains.suffix
  few := Nat.le_trans (t.resolve_suffix number time).length_le retains.few

theorem run (retains : Retains room recorded t) (steps : List TripStep) :
    Retains room (recorded ++ history steps) (steps.foldl step t) := by
  induction steps generalizing recorded t with
  | nil =>
    rw [history, List.filterMap_nil, List.append_nil]
    exact retains
  | cons s rest ih =>
    cases s with
    | record r =>
      have next := ih (retains.record r)
      rw [List.append_assoc] at next
      exact next
    | resolve number time => exact ih (retains.resolve number time)

end Retains

/-- After any records and echoes a buffer holds the latest of the records that have come, as many as it has room for at
most. One more is put behind them, for which the oldest goes if there is no room left. An echo without a record of its
number leaves the buffer as it is; any other one gives the times of the first record of its number, and takes that and
the older ones away. -/
theorem buffer_keeps_latest (capacity : Nat) (steps : List TripStep) :
    let t := after capacity steps
    t.records <:+ history steps ∧ t.records.length ≤ max 1 capacity ∧
      (∀ r, t.record r =
        { t with records := (if t.records.length < max 1 capacity then t.records else t.records.tail) ++ [r] }) ∧
      ∀ number time, Resolves t number time (t.resolve number time).1 (t.resolve number time).2 := by
  intro t
  have retains : Retains (max 1 capacity) (history steps) t := (Retains.opened capacity).run steps
  refine ⟨retains.suffix, retains.few, ?_, t.resolves⟩
  intro r
  have few := retains.few
  have positive : 0 < max 1 capacity := Nat.lt_of_lt_of_le Nat.one_pos (Nat.le_max_left 1 capacity)
  rw [← retains.capacity] at few positive ⊢
  split
  · next room => exact record_of_room room r
  · next full => exact record_of_full positive (Nat.le_antisymm few (Nat.not_lt.mp full)) r

/-- Of two records with one number an echo takes the older one, and the next echo the other. -/
example (p q r : RoundTripRecord) (time : Float) (other : p.sequence ≠ q.sequence) (same : r.sequence = q.sequence) :
    (after 3 [.record p, .record q, .record r, .resolve q.sequence time]).records = [r] ∧
      (after 3 [.record p, .record q, .record r, .resolve q.sequence time, .resolve q.sequence time]).records = [] := by
  simp [after, step, record, resolve, withCapacity, other, same]

end RoundTrips

end Onboard
