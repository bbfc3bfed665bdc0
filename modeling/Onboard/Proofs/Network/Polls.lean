import Onboard.Proofs.Network.Loss
import Onboard.Proofs.Network.Newest
import Onboard.Proofs.Network.RoundTrips

/-! What polls give, however deliveries to the sources and polls interleave. Newness is judged three times, by each
source, over all slots and against what was given last; together that is the latest set of all that were delivered.
The exception is a source whose estimate of lost sets has no result: it falls silent with a set in hand. -/

namespace Onboard

structure Arrival where
  source : Nat
  set : PrimitiveSet
  receivedAt : Instant
  receivedTime : Float

inductive NetworkEvent where
  | delivery (a : Arrival)
  | poll (status : RobotStatus) (time : Float) (send : RobotStatus → Except DatagramError Unit)

/-- Events one after another, the polls among them and the service they lead to. -/
inductive Served (first : NetworkService) : List NetworkEvent → List NetworkPoll → NetworkService → Prop where
  | opened : Served first [] [] first
  | delivered (a : Arrival) : Served first events polls s →
      Served first (events ++ [.delivery a]) polls (s.deliver a.source a.set a.receivedAt a.receivedTime)
  | polled (status : RobotStatus) (time : Float) (send : RobotStatus → Except DatagramError Unit) :
      Served first events polls s →
      Served first (events ++ [.poll status time send]) (polls ++ [s.poll status time send])
        (s.poll status time send).service

def NetworkEvent.arrival? : NetworkEvent → Option Arrival
  | .delivery a => some a
  | .poll .. => none

def arrivals (events : List NetworkEvent) : List Arrival :=
  events.filterMap NetworkEvent.arrival?

/-- The set is the one that came, with its stamps. -/
structure Arrival.Brought (a : Arrival) (s : InboundSet) : Prop where
  set : s.set = a.set
  receivedAt : s.receivedAt = a.receivedAt
  receivedTime : s.receivedTime = a.receivedTime

/-- A set found among arrivals of which none was sent later. -/
structure IsNewest (found : Option InboundSet) (arrived : List Arrival) : Prop where
  brought : ∀ s, found = some s → ∃ a ∈ arrived, a.Brought s
  latest : ∀ a ∈ arrived, ∃ s, found = some s ∧ a.set.timeSent ≤ s.set.timeSent

def given (polls : List NetworkPoll) : Option InboundSet :=
  polls.getLast?.bind NetworkPoll.inbound

def tripsAfter (first : NetworkService) (polls : List NetworkPoll) : RoundTrips :=
  (polls.getLast?.map fun p => p.service.trips).getD first.trips

/-- What a poll gives and notes after others and after some arrivals. -/
structure GivesNewest (first : NetworkService) (polls : List NetworkPoll) (arrived : List Arrival)
    (status : RobotStatus) (time : Float) (p : NetworkPoll) : Prop where
  nothing : p.inbound = none ↔ arrived = []
  newest : IsNewest p.inbound arrived
  /-- It gives something else only if that was sent strictly later. -/
  later : p.inbound ≠ given polls → ∀ s, given polls = some s →
    ∃ t, p.inbound = some t ∧ s.set.timeSent < t.set.timeSent
  /-- Then it adds one record to those that the last poll left, before a status settles them. -/
  noted : p.inbound ≠ given polls → ∀ s, p.inbound = some s →
    p.service.trips =
      ((tripsAfter first polls).record (NetworkService.recordOf s)).settled p.isDue status.lastHandled time
  unnoted : p.inbound = given polls →
    p.service.trips = (tripsAfter first polls).settled p.isDue status.lastHandled time
  increasing : p.service.trips.records.Pairwise fun r q => r.aiSent < q.aiSent

theorem concat_split {l before after : List α} (whole : l ++ [a] = before ++ b :: after) :
    (before = l ∧ b = a ∧ after = []) ∨ ∃ between, l = before ++ b :: between ∧ after = between ++ [a] := by
  rcases List.eq_nil_or_concat after with rfl | ⟨between, c, rfl⟩
  · obtain ⟨rfl, same⟩ := List.append_inj' whole rfl
    exact .inl ⟨rfl, (List.singleton_inj.mp same).symm, rfl⟩
  · rw [List.concat_eq_append, ← List.cons_append, ← List.append_assoc] at whole
    obtain ⟨rfl, same⟩ := List.append_inj' whole rfl
    rw [List.singleton_inj.mp same]
    exact .inr ⟨between, rfl, List.concat_eq_append⟩

/-- A source that has not fallen silent, after what came to it. -/
structure SourceHolds (numbers : UInt64 → Prop) (arrived : List Arrival) (x : PrimitiveSource) : Prop where
  fault : x.fault = none
  newestTime : x.newestTime = x.slot.map fun s => s.set.timeSent
  window : ∀ n ∈ x.window.numbers, numbers n
  slot : IsNewest x.slot arrived

theorem SourceHolds.silent (numbers : UInt64 → Prop) : SourceHolds numbers [] .silent where
  fault := rfl
  newestTime := rfl
  window := nofun
  slot := ⟨nofun, nofun⟩

theorem IsNewest.taken (number : a.set.timeSent.isNaN = false)
    (older : ∀ b ∈ arrived, b.set.timeSent ≤ a.set.timeSent) (brought : a.Brought s) :
    IsNewest (some s) (arrived ++ [a]) where
  brought := by
    rintro _ ⟨⟩
    exact ⟨a, List.mem_append_right _ (List.mem_singleton_self a), brought⟩
  latest := by
    intro b member
    refine ⟨s, rfl, ?_⟩
    rw [brought.set]
    rcases List.mem_append.mp member with old | new
    · exact older b old
    · cases List.mem_singleton.mp new
      exact Double.le_refl number

theorem IsNewest.kept (newest : IsNewest (some s) arrived) (older : a.set.timeSent ≤ s.set.timeSent) :
    IsNewest (some s) (arrived ++ [a]) where
  brought t found := by
    obtain ⟨b, member, brought⟩ := newest.brought t found
    exact ⟨b, List.mem_append_left _ member, brought⟩
  latest b member := by
    rcases List.mem_append.mp member with old | new
    · exact newest.latest b old
    · cases List.mem_singleton.mp new
      exact ⟨s, rfl, older⟩

/-- A source that has not fallen silent has the newest set that came to it. -/
structure Attends (arrived : List Arrival) (x : PrimitiveSource) : Prop where
  fault : x.fault = none
  newestTime : x.newestTime = x.slot.map fun s => s.set.timeSent
  slot : IsNewest x.slot arrived

/-- The set was sent later than all that came before it. -/
def Arrival.Outruns (a : Arrival) (arrived : List Arrival) : Prop :=
  ∀ b ∈ arrived, b.set.timeSent < a.set.timeSent

theorem IsNewest.outruns_iff {a : Arrival} (newest : IsNewest found arrived) :
    a.Outruns arrived ↔ ∀ s, found = some s → s.set.timeSent < a.set.timeSent := by
  constructor
  · intro outruns s held
    obtain ⟨b, member, brought⟩ := newest.brought s held
    rw [brought.set]
    exact outruns b member
  · intro later b member
    obtain ⟨s, held, order⟩ := newest.latest b member
    exact Double.lt_of_le_of_lt order (later s held)

theorem Attends.isNewer_iff {a : Arrival} (attends : Attends arrived x) :
    (match x.newestTime with
      | some newest => decide (newest < a.set.timeSent)
      | none => true) = true ↔ a.Outruns arrived := by
  rw [attends.newestTime, attends.slot.outruns_iff]
  cases x.slot with
  | none => exact iff_of_true rfl nofun
  | some s =>
    rw [Option.map_some, decide_eq_true_iff]
    exact ⟨fun later _ same => Option.some.inj same ▸ later, fun later => later s rfl⟩

/-- A set that does not outrun the others is only counted. -/
theorem Attends.deliver_older {a : Arrival} (attends : Attends arrived x) (older : ¬ a.Outruns arrived) :
    x.deliver a.set a.receivedAt a.receivedTime = { x with window := x.window.record a.set.sequence } := by
  unfold PrimitiveSource.deliver
  rw [if_neg (by rw [attends.fault]; exact Bool.false_ne_true)]
  exact if_neg (mt attends.isNewer_iff.mp older)

theorem Attends.deliver_newer {a : Arrival} (attends : Attends arrived x) (outruns : a.Outruns arrived) :
    x.deliver a.set a.receivedAt a.receivedTime =
      match (x.window.record a.set.sequence).percentage with
      | .ok loss => ⟨x.window.record a.set.sequence, some a.set.timeSent,
          some ⟨a.set, a.receivedAt, a.receivedTime, loss⟩, none⟩
      | .error fault => { x with
          window := x.window.record a.set.sequence, newestTime := some a.set.timeSent, fault := some fault } := by
  unfold PrimitiveSource.deliver
  rw [if_neg (by rw [attends.fault]; exact Bool.false_ne_true)]
  exact if_pos (attends.isNewer_iff.mpr outruns)

theorem Attends.deliver {a : Arrival} (attends : Attends arrived x)
    (valid : ∀ b ∈ arrived ++ [a], b.set.timeSent.isNaN = false)
    (estimate : a.Outruns arrived → ∃ loss, (x.window.record a.set.sequence).percentage = .ok loss) :
    Attends (arrived ++ [a]) (x.deliver a.set a.receivedAt a.receivedTime) := by
  have number := valid a (List.mem_append_right _ (List.mem_singleton_self a))
  by_cases outruns : a.Outruns arrived
  · obtain ⟨loss, counted⟩ := estimate outruns
    rw [attends.deliver_newer outruns, counted]
    exact ⟨rfl, rfl, .taken number (fun b member => Double.le_of_lt (outruns b member)) ⟨rfl, rfl, rfl⟩⟩
  · rw [attends.deliver_older outruns]
    refine ⟨attends.fault, attends.newestTime, ?_⟩
    have newest := attends.slot
    rw [newest.outruns_iff] at outruns
    change IsNewest x.slot _
    cases slot : x.slot with
    | none =>
      rw [slot] at outruns
      exact absurd nofun outruns
    | some s =>
      rw [slot] at newest outruns
      obtain ⟨b, member, brought⟩ := newest.brought s rfl
      have numberS : s.set.timeSent.isNaN = false := by
        rw [brought.set]
        exact valid b (List.mem_append_left _ member)
      refine newest.kept (Double.le_of_not_lt numberS number fun later => outruns ?_)
      exact fun t same => Option.some.inj same ▸ later

theorem Attends.window_deliver (attends : Attends arrived x) (a : Arrival) :
    (x.deliver a.set a.receivedAt a.receivedTime).window = x.window.record a.set.sequence := by
  by_cases outruns : a.Outruns arrived
  · rw [attends.deliver_newer outruns]
    cases (x.window.record a.set.sequence).percentage <;> rfl
  · rw [attends.deliver_older outruns]

theorem SourceHolds.deliver {numbers : UInt64 → Prop} (counted : ¬ (numbers 0 ∧ numbers 0xFFFFFFFFFFFFFFFF))
    (holds : SourceHolds numbers arrived x) (a : Arrival)
    (valid : ∀ b ∈ arrived ++ [a], b.set.timeSent.isNaN = false) (number : numbers a.set.sequence) :
    SourceHolds numbers (arrived ++ [a]) (x.deliver a.set a.receivedAt a.receivedTime) := by
  have window : ∀ n ∈ (x.window.record a.set.sequence).numbers, numbers n := by
    intro n member
    rcases LossWindow.mem_record member with rfl | old
    · exact number
    · exact holds.window n old
  have attends : Attends arrived x := ⟨holds.fault, holds.newestTime, holds.slot⟩
  have next := attends.deliver valid fun _ => LossWindow.percentage_ok numbers counted window
  refine ⟨next.fault, next.newestTime, ?_, next.slot⟩
  rw [attends.window_deliver]
  exact window

/-- Records were made at ever later times, the last of them not after the set given last. -/
structure Increasing (latest : Option InboundSet) (t : RoundTrips) : Prop where
  pairwise : t.records.Pairwise fun r q => r.aiSent < q.aiSent
  reached : ∀ r ∈ t.records, ∃ s, latest = some s ∧ r.aiSent ≤ s.set.timeSent

theorem Increasing.suffix (increasing : Increasing latest t) (suffix : u.records <:+ t.records) :
    Increasing latest u where
  pairwise := increasing.pairwise.sublist suffix.sublist
  reached r member := increasing.reached r (suffix.subset member)

theorem Increasing.record (increasing : Increasing latest t) (number : s.set.timeSent.isNaN = false)
    (later : ∀ c, latest = some c → c.set.timeSent < s.set.timeSent) :
    Increasing (some s) (t.record (NetworkService.recordOf s)) := by
  have below : ∀ r ∈ t.records, r.aiSent < s.set.timeSent := by
    intro r member
    obtain ⟨c, last, order⟩ := increasing.reached r member
    exact Double.lt_of_le_of_lt order (later c last)
  refine .suffix (t := { t with records := t.records ++ [NetworkService.recordOf s] }) ⟨?_, ?_⟩ (t.record_suffix _)
  · refine List.pairwise_append.mpr ⟨increasing.pairwise, List.pairwise_singleton .., ?_⟩
    intro r member q last
    cases List.mem_singleton.mp last
    exact below r member
  · intro r member
    refine ⟨s, rfl, ?_⟩
    rcases List.mem_append.mp member with old | new
    · exact Double.le_of_lt (below r old)
    · cases List.mem_singleton.mp new
      exact Double.le_refl number

/-- A delivery to one of so many sources, at a finite time and under one of the source's numbers. -/
structure Arrival.Regular (numbers : Nat → UInt64 → Prop) (count : Nat) (a : Arrival) : Prop where
  source : a.source < count
  finite : a.set.timeSent.isFinite = true
  number : numbers a.source a.set.sequence

/-- A service after some polls and some arrivals. -/
structure ServiceHolds (numbers : Nat → UInt64 → Prop) (first : NetworkService) (polls : List NetworkPoll)
    (arrived : List Arrival) (s : NetworkService) : Prop where
  regular : ∀ a ∈ arrived, a.Regular numbers s.sources.length
  sources : ∀ j x, s.sources[j]? = some x → SourceHolds (numbers j) (arrived.filter fun a => a.source = j) x
  latest : s.latest = given polls
  brought : ∀ t, s.latest = some t → ∃ a ∈ arrived, a.Brought t
  trips : s.trips = tripsAfter first polls
  increasing : Increasing s.latest s.trips

theorem ServiceHolds.opened (numbers : Nat → UInt64 → Prop) (fresh : NetworkService.Fresh count first) :
    ServiceHolds numbers first [] [] first where
  regular := nofun
  sources j x found := by
    rw [fresh.sources] at found
    cases (List.mem_replicate.mp (List.mem_of_getElem? found)).2
    exact .silent (numbers j)
  latest := fresh.latest
  brought t last := nomatch fresh.latest.symm.trans last
  trips := rfl
  increasing := by
    refine ⟨?_, ?_⟩ <;> rw [fresh.records]
    · exact .nil
    · exact nofun

theorem ServiceHolds.delivered {numbers : Nat → UInt64 → Prop}
    (counted : ∀ j, ¬ (numbers j 0 ∧ numbers j 0xFFFFFFFFFFFFFFFF))
    (holds : ServiceHolds numbers first polls arrived s) (a : Arrival) (regular : a.Regular numbers s.sources.length) :
    ServiceHolds numbers first polls (arrived ++ [a])
      (s.deliver a.source a.set a.receivedAt a.receivedTime) := by
  have all : ∀ b ∈ arrived ++ [a], b.Regular numbers s.sources.length := by
    intro b member
    rcases List.mem_append.mp member with old | new
    · exact holds.regular b old
    · cases List.mem_singleton.mp new
      exact regular
  exact {
    regular := by
      rw [NetworkService.length_deliver]
      exact all
    sources := by
      intro j x found
      obtain ⟨y, before, rfl⟩ := NetworkService.getElem?_deliver found
      rw [List.filter_append]
      by_cases here : a.source = j
      · simp only [here, if_true, List.filter_cons, decide_true, List.filter_nil]
        refine (holds.sources j y before).deliver (counted j) a ?_ (here ▸ regular.number)
        intro b member
        refine Double.number_of_isFinite (all b ?_).finite
        rcases List.mem_append.mp member with old | new
        · exact List.mem_append_left _ (List.mem_filter.mp old).1
        · exact List.mem_append_right _ new
      · simp only [here, if_false, List.filter_cons, decide_false, Bool.false_eq_true, List.filter_nil, List.append_nil]
        exact holds.sources j y before
    latest := holds.latest
    brought := by
      intro t last
      obtain ⟨b, member, brought⟩ := holds.brought t last
      exact ⟨b, List.mem_append_left _ member, brought⟩
    trips := holds.trips
    increasing := holds.increasing }

theorem ServiceHolds.number (holds : ServiceHolds numbers first polls arrived s)
    (brought : ∃ a ∈ arrived, a.Brought t) : t.set.timeSent.isNaN = false := by
  obtain ⟨a, came, brought⟩ := brought
  rw [brought.set]
  exact Double.number_of_isFinite (holds.regular a came).finite

/-- The newest slot holds the newest of all that came. -/
theorem ServiceHolds.newest (holds : ServiceHolds numbers first polls arrived s) : IsNewest s.newest arrived := by
  have slots : ∀ t, some t ∈ s.sources.map PrimitiveSource.slot → ∃ a ∈ arrived, a.Brought t := by
    intro t member
    obtain ⟨x, inside, slot⟩ := List.mem_map.mp member
    obtain ⟨j, found⟩ := List.mem_iff_getElem?.mp inside
    obtain ⟨a, came, brought⟩ := (holds.sources j x found).slot.brought t slot
    exact ⟨a, (List.mem_filter.mp came).1, brought⟩
  refine ⟨fun t found => slots t (followed_mem found), ?_⟩
  intro a came
  have bound := (holds.regular a came).source
  have found := List.getElem?_eq_getElem bound
  obtain ⟨t, slot, order⟩ := (holds.sources a.source _ found).slot.latest a
    (List.mem_filter.mpr ⟨came, decide_eq_true rfl⟩)
  have numbers : ∀ t, some t ∈ s.sources.map PrimitiveSource.slot → t.set.timeSent.isNaN = false :=
    fun t member => holds.number (slots t member)
  obtain ⟨u, newest, later⟩ := le_followed numbers (List.mem_map.mpr ⟨_, List.getElem_mem bound, slot⟩)
  exact ⟨u, newest, Double.le_trans order later⟩

/-- Together with what was given last it is still the newest. -/
theorem ServiceHolds.newest_take (holds : ServiceHolds numbers first polls arrived s) :
    IsNewest s.take.latest arrived := by
  have newest := holds.newest
  rw [NetworkService.latest_take]
  refine ⟨?_, ?_⟩
  · intro t found
    rcases newer_mem found with last | slot
    · exact holds.brought t last
    · exact newest.brought t slot
  · intro a came
    obtain ⟨t, slot, order⟩ := newest.latest a came
    have numbers : ∀ t, s.latest = some t ∨ s.newest = some t → t.set.timeSent.isNaN = false :=
      fun t member => holds.number (member.elim (holds.brought t) (newest.brought t))
    obtain ⟨u, found, later⟩ := le_newer numbers (.inr slot)
    exact ⟨u, found, Double.le_trans order later⟩

theorem ServiceHolds.increasing_take (holds : ServiceHolds numbers first polls arrived s) :
    Increasing s.take.latest s.take.trips := by
  rcases s.take_cases with kept | ⟨inbound, newest, later, taken⟩
  · rw [kept]
    exact holds.increasing
  · have number := holds.number (holds.newest.brought inbound newest)
    rw [taken]
    exact holds.increasing.record number later

theorem ServiceHolds.gives (holds : ServiceHolds numbers first polls arrived s)
    (polled : NetworkService.Polled s status time p) : GivesNewest first polls arrived status time p := by
  have newest := holds.newest_take
  rw [← polled.inbound] at newest
  have trips := polled.trips
  refine ⟨?_, newest, ?_, ?_, ?_, ?_⟩
  · constructor
    · intro nothing
      refine List.eq_nil_iff_forall_not_mem.mpr fun a came => ?_
      obtain ⟨t, found, -⟩ := newest.latest a came
      exact nomatch nothing.symm.trans found
    · intro none
      refine Option.eq_none_iff_forall_ne_some.mpr fun t found => ?_
      obtain ⟨a, came, -⟩ := newest.brought t found
      exact nomatch none ▸ came
  · rw [← holds.latest, polled.inbound, NetworkService.latest_take]
    intro changed t last
    obtain ⟨u, -, found, later⟩ := newer_ne changed
    exact ⟨u, found, later t last⟩
  · rw [← holds.latest, ← holds.trips, polled.inbound, trips]
    intro changed t found
    rcases s.take_cases with kept | ⟨inbound, -, -, taken⟩
    · exact absurd (by rw [kept]) changed
    · rw [taken] at found ⊢
      cases found
      rfl
  · rw [← holds.latest, ← holds.trips, polled.inbound, trips]
    intro same
    rcases s.take_cases with kept | ⟨inbound, -, later, taken⟩
    · rw [kept]
    · rw [taken] at same
      exact absurd (later inbound same.symm) (Double.lt_irrefl _)
  · rw [trips]
    exact (holds.increasing_take.suffix (RoundTrips.settled_suffix ..)).pairwise

theorem ServiceHolds.polled (holds : ServiceHolds numbers first polls arrived s)
    (polled : NetworkService.Polled s status time p) :
    ServiceHolds numbers first (polls ++ [p]) arrived p.service where
  regular := by
    rw [polled.sources, NetworkService.sources_take]
    exact holds.regular
  sources := by
    rw [polled.sources, NetworkService.sources_take]
    exact holds.sources
  latest := by
    rw [given, List.getLast?_concat, polled.latest]
    exact polled.inbound.symm
  brought := by
    rw [polled.latest]
    exact holds.newest_take.brought
  trips := by
    rw [tripsAfter, List.getLast?_concat]
    rfl
  increasing := by
    rw [polled.latest, polled.trips]
    exact holds.increasing_take.suffix (RoundTrips.settled_suffix ..)

theorem Served.holds {numbers : Nat → UInt64 → Prop}
    (counted : ∀ j, ¬ (numbers j 0 ∧ numbers j 0xFFFFFFFFFFFFFFFF)) (fresh : NetworkService.Fresh count first)
    (served : Served first events polls s)
    (regular : ∀ a ∈ arrivals events, a.Regular numbers count) :
    s.sources.length = count ∧ ServiceHolds numbers first polls (arrivals events) s := by
  induction served with
  | opened => exact ⟨by rw [fresh.sources, List.length_replicate], .opened numbers fresh⟩
  | delivered a _ ih =>
    rw [arrivals, List.filterMap_append] at regular ⊢
    obtain ⟨size, holds⟩ := ih fun b member => regular b (List.mem_append_left _ member)
    refine ⟨?_, holds.delivered counted a ?_⟩
    · rw [NetworkService.length_deliver, size]
    · rw [size]
      exact regular a (List.mem_append_right _ (List.mem_singleton_self a))
  | @polled _ _ s status time send _ ih =>
    rw [arrivals, List.filterMap_append, List.filterMap_cons_none rfl, List.filterMap_nil, List.append_nil]
      at regular ⊢
    obtain ⟨size, holds⟩ := ih regular
    have polled := s.polled status time send
    exact ⟨by rw [polled.sources, NetworkService.sources_take, size], holds.polled polled⟩

/-- One cycle a second, and one second for sets and for the board. -/
def LoopSettings.secondly : LoopSettings :=
  ⟨1.0, 1.0, 1.0, 1000.0, 1000.0, ⟨.zero, .zero, 0.0⟩, "", "", "", ""⟩

/-- Two sets whose numbers lie as far apart as they can. -/
def spanning (source : Nat) : List Arrival :=
  [⟨source, ⟨0, 1.0, .empty⟩, 0, 1.0⟩, ⟨source, ⟨0xFFFFFFFFFFFFFFFF, 2.0, .empty⟩, 0, 2.0⟩]

theorem modify_replicate (n : Nat) (a b : α) (f : α → α) :
    (List.replicate n a ++ [b]).modify n f = List.replicate n a ++ [f b] := by
  induction n with
  | zero => rfl
  | succ n ih => exact congrArg (a :: ·) ih

theorem followed_last (n : Nat) (t : Option InboundSet) : followed (List.replicate n none ++ [t]) = t := by
  have nothing : followed (List.replicate n none) = none := by
    induction n with
    | zero => rfl
    | succ n ih =>
      rw [List.replicate_succ', followed_append, ih]
      rfl
  rw [followed_append, nothing]
  cases t <;> rfl

theorem spanning_served (source : Nat) :
    ∃ first s, NetworkService.onSources (source + 1) .secondly = .ok first ∧
      Served first ((spanning source).map .delivery) [] s ∧
      s.take.latest.map (fun t => t.set.timeSent) = some 1.0 := by
  refine ⟨_, _, rfl, .delivered _ (.delivered _ .opened), ?_⟩
  rw [NetworkService.latest_take]
  simp only [NetworkService.deliver, NetworkService.newest, List.replicate_succ', modify_replicate, List.map_append,
    List.map_replicate, List.map_singleton]
  change (NetworkService.newer none (followed (List.replicate source none ++ [_]))).map _ = _
  rw [followed_last]
  decide +kernel

/-- The second of them is never given. -/
theorem spanning_not_newest (served : s.take.latest.map (fun t => t.set.timeSent) = some 1.0)
    (polled : NetworkService.Polled s status time p) : ¬ IsNewest p.inbound (spanning source) := by
  intro newest
  obtain ⟨t, found, order⟩ := newest.latest _ (List.mem_cons_of_mem _ (List.mem_singleton_self _))
  rw [← polled.inbound, found] at served
  have first : t.set.timeSent = 1.0 := Option.some.inj served
  rw [first] at order
  have earlier : ¬ (2.0 : Float) ≤ 1.0 := by decide
  exact earlier order

/-- Every poll of every run gives the newest set delivered so far, changes it only for a later one and notes just
these changes, if and only if no source is sent both the least and the greatest number. -/
theorem polls_give_newest_iff (numbers : Nat → UInt64 → Prop) :
    (∀ count settings first events polls s, NetworkService.onSources count settings = .ok first →
        Served first events polls s → (∀ a ∈ arrivals events, a.Regular numbers count) →
        ∀ status time send, GivesNewest first polls (arrivals events) status time (s.poll status time send)) ↔
      ∀ source, ¬ (numbers source 0 ∧ numbers source 0xFFFFFFFFFFFFFFFF) := by
  constructor
  · rintro gives source ⟨least, greatest⟩
    obtain ⟨first, s, opened, served, silent⟩ := spanning_served source
    have regular : ∀ a ∈ spanning source, a.Regular numbers (source + 1) := by
      intro a member
      rcases List.mem_cons.mp member with rfl | last
      · have finite : (1.0 : Float).isFinite = true := by decide
        exact ⟨Nat.lt_succ_self source, finite, least⟩
      · cases List.mem_singleton.mp last
        have finite : (2.0 : Float).isFinite = true := by decide
        exact ⟨Nat.lt_succ_self source, finite, greatest⟩
    have newest := (gives _ _ _ _ _ s opened served regular .initial 3.0 fun _ => .ok ()).newest
    exact spanning_not_newest silent (s.polled ..) newest
  · intro counted count settings first events polls s opened served regular status time send
    obtain ⟨-, holds⟩ := served.holds counted (NetworkService.fresh_onSources opened) regular
    exact holds.gives (s.polled status time send)

/-- The set sent later is lost, and a poll gives the earlier one. -/
theorem poll_misses_newest :
    ∃ first s, NetworkService.onSources 1 .secondly = .ok first ∧
      Served first ((spanning 0).map .delivery) [] s ∧
      ¬ GivesNewest first [] (arrivals ((spanning 0).map .delivery)) .initial 3.0
        (s.poll .initial 3.0 fun _ => .ok ()) := by
  obtain ⟨first, s, opened, served, silent⟩ := spanning_served 0
  exact ⟨first, s, opened, served, fun gives => spanning_not_newest silent (s.polled ..) gives.newest⟩

end Onboard
