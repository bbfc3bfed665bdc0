import Onboard.Network.Service

/-! The records of sets on their way, and what a poll does with them. -/

namespace Onboard

namespace RoundTrips

theorem records_forRates (made : forRates primitiveHz statusHz = .ok t) : t.records = [] := by
  unfold forRates at made
  extract_lets sets capacity at made
  split at made
  · contradiction
  · split at made
    · contradiction
    · cases made
      rfl

/-- There is room for the set that the next status names and for one more. -/
theorem capacity_forRates (made : forRates primitiveHz statusHz = .ok t) : 2 ≤ t.capacity := by
  unfold forRates at made
  extract_lets sets capacity at made
  split at made
  · contradiction
  · split at made
    · contradiction
    · cases made
      change 2 ≤ max 1 (max 1 sets * recordsPerSet)
      unfold recordsPerSet
      omega

theorem record_suffix (t : RoundTrips) (r : RoundTripRecord) : (t.record r).records <:+ t.records ++ [r] :=
  List.drop_suffix ..

theorem resolve_suffix (t : RoundTrips) (number : UInt64) (time : Float) :
    (t.resolve number time).2.records <:+ t.records := by
  unfold resolve
  split
  · exact List.suffix_refl _
  · next r later found =>
    have tail : later <:+ r :: later := List.suffix_cons r later
    rw [← found] at tail
    exact tail.trans (List.dropWhile_suffix _)

theorem resolve_eq_some {t : RoundTrips} (resolved : (t.resolve number time).1 = some trip) :
    ∃ r ∈ t.records, r.sequence = number ∧ trip = ⟨r.sequence, r.aiSent, r.robotReceived, time⟩ := by
  unfold resolve at resolved
  split at resolved
  · contradiction
  · next r later found =>
    cases resolved
    have member : r ∈ t.records.dropWhile fun r => r.sequence ≠ number := found ▸ List.mem_cons_self
    have echoed := List.head?_dropWhile_not (fun r => decide (r.sequence ≠ number)) t.records
    rw [found] at echoed
    refine ⟨r, (List.dropWhile_suffix _).subset member, ?_, rfl⟩
    simpa using echoed

theorem resolve_absent {t : RoundTrips} (absent : ∀ r ∈ t.records, r.sequence ≠ number) (time : Float) :
    t.resolve number time = (none, t) := by
  have none : t.records.dropWhile (fun r => r.sequence ≠ number) = [] := by
    rw [← List.append_nil t.records, List.dropWhile_append_of_pos fun r member => decide_eq_true (absent r member)]
    rfl
  unfold resolve
  rw [none]

theorem resolve_found {t : RoundTrips} (split : t.records = before ++ r :: later)
    (absent : ∀ q ∈ before, q.sequence ≠ number) (same : r.sequence = number) (time : Float) :
    t.resolve number time =
      (some ⟨r.sequence, r.aiSent, r.robotReceived, time⟩, { t with records := later }) := by
  have found : t.records.dropWhile (fun r => r.sequence ≠ number) = r :: later := by
    rw [split, List.dropWhile_append_of_pos fun q member => decide_eq_true (absent q member)]
    exact List.dropWhile_cons_of_neg (by simpa using same)
  unfold resolve
  rw [found]

/-- The records after a poll: if a status goes out, the set that it echoes is no longer on its way. -/
def settled (t : RoundTrips) (isDue : Bool) (number : UInt64) (time : Float) : RoundTrips :=
  if isDue then (t.resolve number time).2 else t

theorem settled_suffix (t : RoundTrips) (isDue : Bool) (number : UInt64) (time : Float) :
    (t.settled isDue number time).records <:+ t.records := by
  unfold settled
  split
  · exact t.resolve_suffix number time
  · exact List.suffix_refl _

theorem capacity_settled (t : RoundTrips) (isDue : Bool) (number : UInt64) (time : Float) :
    (t.settled isDue number time).capacity = t.capacity := by
  unfold settled resolve
  split
  · split <;> rfl
  · rfl

end RoundTrips

namespace NetworkService

/-- A service before anything has come. -/
structure Fresh (count : Nat) (s : NetworkService) : Prop where
  sources : s.sources = List.replicate count .silent
  latest : s.latest = none
  records : s.trips.records = []

theorem capacity_onSources {settings : LoopSettings} (opened : onSources count settings = .ok s) :
    2 ≤ s.trips.capacity := by
  unfold onSources at opened
  cases made : RoundTrips.forRates settings.primitiveHz settings.statusHz with
  | error e =>
    rw [made] at opened
    contradiction
  | ok trips =>
    rw [made] at opened
    cases opened
    exact RoundTrips.capacity_forRates made

theorem fresh_onSources {settings : LoopSettings} (opened : onSources count settings = .ok s) : Fresh count s := by
  unfold onSources at opened
  cases made : RoundTrips.forRates settings.primitiveHz settings.statusHz with
  | error e =>
    rw [made] at opened
    contradiction
  | ok trips =>
    rw [made] at opened
    cases opened
    exact ⟨rfl, rfl, RoundTrips.records_forRates made⟩

theorem length_deliver (s : NetworkService) (source : Nat) (set : PrimitiveSet) (now : Instant) (time : Float) :
    (s.deliver source set now time).sources.length = s.sources.length :=
  List.length_modify ..

/-- A delivery concerns one source only. -/
theorem getElem?_deliver {s : NetworkService} {set : PrimitiveSet}
    (found : (s.deliver source set now time).sources[j]? = some x) :
    ∃ y, s.sources[j]? = some y ∧ x = if source = j then y.deliver set now time else y := by
  simp only [deliver, List.getElem?_modify, Option.map_eq_map, Option.map_eq_some_iff] at found
  obtain ⟨y, before, rfl⟩ := found
  exact ⟨y, before, rfl⟩

theorem Fresh.slots {s : NetworkService} (fresh : Fresh count s) (P : InboundSet → Prop) :
    ∀ x ∈ s.sources, ∀ t, x.slot = some t → P t := by
  rw [fresh.sources]
  rintro x member t slot
  cases (List.mem_replicate.mp member).2
  contradiction

/-- After a delivery the sources hold what they held, or the set that came. -/
theorem slots_deliver {s : NetworkService} {set : PrimitiveSet} {P : InboundSet → Prop}
    (old : ∀ x ∈ s.sources, ∀ t, x.slot = some t → P t)
    (new : ∀ (w : LossWindow) loss, w.percentage = .ok loss → P ⟨set, now, time, loss⟩) :
    ∀ x ∈ (s.deliver source set now time).sources, ∀ t, x.slot = some t → P t := by
  intro x member t slot
  obtain ⟨j, found⟩ := List.mem_iff_getElem?.mp member
  obtain ⟨y, before, rfl⟩ := getElem?_deliver found
  have held := old y (List.mem_of_getElem? before) t
  split at slot
  · unfold PrimitiveSource.deliver at slot
    split at slot
    · exact held slot
    · extract_lets window isNewer at slot
      split at slot
      · split at slot
        · next loss estimate =>
          cases slot
          exact new window loss estimate
        · exact held slot
      · exact held slot
  · exact held slot

theorem lastHandled_withLoss (status : RobotStatus) (latest : Option InboundSet) :
    (withLoss status latest).lastHandled = status.lastHandled := by
  cases latest <;> rfl

theorem timeSent_withLoss (status : RobotStatus) (latest : Option InboundSet) :
    (withLoss status latest).timeSent = status.timeSent := by
  cases latest <;> rfl

/-- What a poll gives and leaves, whether a status goes out or not. -/
structure Polled (s : NetworkService) (status : RobotStatus) (time : Float) (p : NetworkPoll) : Prop where
  inbound : p.inbound = s.take.latest
  latest : p.service.latest = s.take.latest
  sources : p.service.sources = s.take.sources
  trips : p.service.trips = s.take.trips.settled p.isDue status.lastHandled time
  roundTrip : p.status.network.roundTrip =
    if p.isDue then (s.take.trips.resolve status.lastHandled time).1 else none
  status : p.status = withRoundTrip
    { withLoss status s.take.latest with timeSent := if p.isDue then time else status.timeSent }
    p.status.network.roundTrip

theorem polled (s : NetworkService) (status : RobotStatus) (time : Float)
    (send : RobotStatus → Except DatagramError Unit) : Polled s status time (s.poll status time send) := by
  have same := lastHandled_withLoss status s.take.latest
  unfold poll
  dsimp only
  generalize s.take.limiter.shouldSend (withLoss status s.take.latest) = decision
  rcases decision with ⟨_ | _, limiter⟩
  · constructor
    case status =>
      rw [← timeSent_withLoss status s.take.latest]
      rfl
    all_goals rfl
  · constructor
    case trips => exact congrArg (fun n => (s.take.trips.resolve n time).2) same
    case roundTrip => exact congrArg (fun n => (s.take.trips.resolve n time).1) same
    all_goals rfl

theorem Polled.lastHandled {s : NetworkService} {status : RobotStatus} {time : Float} {p : NetworkPoll}
    (polled : Polled s status time p) :
    p.status.lastHandled = status.lastHandled := by
  rw [polled.status]
  exact lastHandled_withLoss status s.take.latest

theorem Polled.timeSent {s : NetworkService} {status : RobotStatus} {time : Float} {p : NetworkPoll}
    (polled : Polled s status time p) (due : p.isDue = true) :
    p.status.timeSent = time := by
  rw [polled.status, due]
  rfl

theorem sources_take (s : NetworkService) : s.take.sources = s.sources := by
  unfold take
  split <;> rfl

theorem limiter_take (s : NetworkService) : s.take.limiter = s.limiter := by
  unfold take
  split <;> rfl

theorem fresh_eq_some {s : NetworkService} (found : s.fresh = some inbound) :
    s.newest = some inbound ∧ ∀ c, s.latest = some c → c.set.timeSent < inbound.set.timeSent := by
  unfold fresh at found
  split at found
  · next candidate current newest last =>
    split at found
    · next later =>
      cases found
      refine ⟨newest, fun c same => ?_⟩
      cases last.symm.trans same
      exact of_decide_eq_true later
    · contradiction
  · next candidate newest last =>
    cases found
    exact ⟨newest, fun c same => nomatch last.symm.trans same⟩
  · contradiction

/-- A poll keeps what the last one gave, or takes a set that was sent later and notes it. -/
theorem take_cases (s : NetworkService) :
    s.take = s ∨ ∃ inbound, s.newest = some inbound ∧
      (∀ c, s.latest = some c → c.set.timeSent < inbound.set.timeSent) ∧
      s.take = { s with latest := some inbound, trips := s.trips.record (recordOf inbound) } := by
  unfold take
  cases found : s.fresh with
  | none => exact .inl rfl
  | some inbound =>
    obtain ⟨newest, later⟩ := fresh_eq_some found
    exact .inr ⟨inbound, newest, later, rfl⟩

theorem latest_take_eq (s : NetworkService) : s.take.latest = s.fresh.or s.latest := by
  unfold take
  cases s.fresh <;> rfl

/-- A new record makes an old one go only if there are others besides. -/
theorem trips_take {s : NetworkService} (capacity : 2 ≤ s.trips.capacity) :
    ∃ kept, kept <:+ s.trips.records ∧ (kept = [] ↔ s.trips.records = []) ∧
      s.take.trips = { s.trips with records := kept ++ s.fresh.toList.map recordOf } := by
  unfold take
  cases s.fresh with
  | none =>
    refine ⟨s.trips.records, List.suffix_refl _, Iff.rfl, ?_⟩
    rw [Option.toList_none, List.map_nil, List.append_nil]
  | some inbound =>
    have dropped : (s.trips.records ++ [recordOf inbound]).length - s.trips.capacity ≤ s.trips.records.length := by
      rw [List.length_append, List.length_singleton]
      omega
    refine ⟨_, List.drop_suffix _ _, ?_, congrArg (RoundTrips.mk · _) (List.drop_append_of_le_length dropped)⟩
    rw [List.drop_eq_nil_iff, ← List.length_eq_zero_iff, List.length_append, List.length_singleton]
    omega

theorem latest_take (s : NetworkService) : s.take.latest = newer s.latest s.newest := by
  unfold take fresh
  cases s.newest with
  | none => cases s.latest <;> rfl
  | some inbound =>
    cases last : s.latest with
    | none => rfl
    | some latest =>
      cases later : inbound.set.isNewerThan latest.set with
      | true => simp only [if_true, newer, later]
      | false => simp only [Bool.false_eq_true, if_false, newer, later, last]

end NetworkService

end Onboard
