import Onboard.Loop.Networked
import Onboard.Proofs.Loop.Cycle
import Onboard.Proofs.Network.Polls

/-! Round trips and the sets that the loop runs. A status names a set by its number alone, and a poll has noted the
next set before it sends the status of the one before; so a round trip belongs to the set that was run exactly as
long as numbers tell sets apart. Nought names no set, and a later set must not bear an earlier one's number. -/

namespace Onboard

/-- A round trip of the set that the loop runs, with the stamps it came with. -/
structure RoundTrip.IsOf (r : RoundTrip) (cycles : List NetworkedCycle) (n : NetworkedLoop) (s : InboundSet) :
    Prop where
  followed : followed (cycles.map fun c => c.poll.inbound) = some s
  current : n.loop.currentSet = some s.set
  sequence : r.sequence = s.set.sequence
  aiSent : r.aiSent = s.set.timeSent
  robotReceived : r.robotReceived = s.receivedTime

/-- All sets that arrive are among those sent. -/
def Sends (sent : PrimitiveSet → Prop) (events : List NetworkedEvent) : Prop :=
  ∀ source set now time, .arrival source set now time ∈ events → sent set

/-- Whether numbers tell the sets apart that are sent: none is nought, and none comes back later. -/
structure Numbered (sent : PrimitiveSet → Prop) : Prop where
  positive : ∀ a, sent a → a.sequence ≠ 0
  fresh : ∀ a b, sent a → sent b → a.sequence = b.sequence → ¬ a.timeSent < b.timeSent

/-- Where a record comes from: the set given last, or one given before it. -/
def RoundTripRecord.Comes (sent : PrimitiveSet → Prop) (latest : Option InboundSet) (r : RoundTripRecord) : Prop :=
  ∃ t c, latest = some c ∧ sent t.set ∧ r = NetworkService.recordOf t ∧
    (t = c ∨ t.set.timeSent < c.set.timeSent)

/-- What ties loop and network to each other after some cycles. -/
structure Linked (sent : PrimitiveSet → Prop) (cycles : List NetworkedCycle) (n : NetworkedLoop) : Prop where
  slots : ∀ x ∈ n.network.sources, ∀ t, x.slot = some t → sent t.set
  latest : n.network.latest = followed (cycles.map fun c => c.poll.inbound)
  given : ∀ s, n.network.latest = some s → sent s.set
  records : ∀ r ∈ n.network.trips.records, r.Comes sent n.network.latest
  currentSet : n.loop.currentSet = n.network.latest.map InboundSet.set
  lastHandled : n.loop.status.lastHandled = (n.loop.currentSet.map PrimitiveSet.sequence).getD 0

theorem Sends.head (origin : Sends sent (event :: rest)) : Sends sent [event] :=
  fun source set now time member =>
    origin source set now time (List.mem_cons.mpr (.inl (List.mem_singleton.mp member)))

theorem Sends.tail (origin : Sends sent (event :: rest)) : Sends sent rest :=
  fun source set now time member => origin source set now time (List.mem_cons_of_mem _ member)

theorem RoundTripRecord.Comes.later (comes : Comes sent latest r)
    (order : ∀ c, latest = some c → c.set.timeSent < s.set.timeSent) : Comes sent (some s) r := by
  obtain ⟨t, c, last, origin, same, place⟩ := comes
  refine ⟨t, s, rfl, origin, same, .inr ?_⟩
  rcases place with rfl | before
  · exact order t last
  · exact Double.lt_trans before (order c last)

theorem Linked.arrived {set : PrimitiveSet} (linked : Linked sent cycles n) (origin : sent set) (source : Nat)
    (now : Instant) (time : Float) :
    Linked sent cycles { n with network := n.network.deliver source set now time } where
  slots := NetworkService.slots_deliver linked.slots fun _ _ _ => origin
  latest := linked.latest
  given := linked.given
  records := linked.records
  currentSet := linked.currentSet
  lastHandled := linked.lastHandled

theorem Linked.newest (linked : Linked sent cycles n) (newest : n.network.newest = some t) : sent t.set := by
  obtain ⟨x, inside, slot⟩ := List.mem_map.mp (followed_mem newest)
  exact linked.slots x inside t slot

theorem Linked.records_take (linked : Linked sent cycles n) :
    ∀ r ∈ n.network.take.trips.records, r.Comes sent n.network.take.latest := by
  rcases n.network.take_cases with kept | ⟨inbound, newest, later, taken⟩
  · rw [kept]
    exact linked.records
  · rw [taken]
    intro r member
    rcases List.mem_append.mp ((RoundTrips.record_suffix ..).subset member) with old | new
    · exact (linked.records r old).later later
    · exact ⟨inbound, inbound, rfl, linked.newest newest, List.mem_singleton.mp new, .inl rfl⟩

theorem Linked.cycled (linked : Linked sent cycles n)
    (polled : NetworkService.Polled n.network n.loop.status time p)
    (cycled : ControlLoop.Cycled n.loop (NetworkedLoop.inputOf input p) l report) :
    Linked sent (cycles ++ [⟨p, report⟩]) ⟨l, p.service⟩ := by
  have given : p.inbound = NetworkService.newer n.network.latest n.network.newest := by
    rw [polled.inbound, NetworkService.latest_take]
  have latest : p.service.latest = p.inbound := polled.latest.trans polled.inbound.symm
  exact {
    slots := by
      rw [polled.sources, NetworkService.sources_take]
      exact linked.slots
    latest := by
      change p.service.latest = _
      rw [latest, List.map_append, List.map_singleton, followed_append, ← linked.latest, given, newer_newer]
    given := by
      intro s last
      rw [latest, given] at last
      exact (newer_mem last).elim (linked.given s) linked.newest
    records := by
      rw [polled.trips, polled.latest]
      intro r member
      exact linked.records_take r ((RoundTrips.settled_suffix ..).subset member)
    currentSet := by
      change l.currentSet = p.service.latest.map _
      rw [cycled.currentSet_eq linked.currentSet, latest]
      change (NetworkService.newer _ p.inbound).map _ = _
      rw [given, newer_newer]
    lastHandled := cycled.lastHandled }

theorem new_eq_ok {settings : LoopSettings}
    (opened : NetworkedLoop.new robot settings count files start = .ok n) :
    NetworkService.onSources count settings = .ok n.network ∧
      ∃ lines, ControlLoop.new robot settings files start = .ok (n.loop, lines) := by
  unfold NetworkedLoop.new at opened
  cases made : NetworkService.onSources count settings with
  | error e =>
    simp only [made] at opened
    contradiction
  | ok network =>
    cases begun : ControlLoop.new robot settings files start with
    | error e =>
      simp only [made, begun] at opened
      contradiction
    | ok result =>
      simp only [made, begun] at opened
      cases opened
      exact ⟨rfl, _, rfl⟩

theorem Linked.opened {settings : LoopSettings} (sent : PrimitiveSet → Prop)
    (opened : NetworkedLoop.new robot settings count files start = .ok n) : Linked sent [] n := by
  obtain ⟨made, lines, begun⟩ := new_eq_ok opened
  have network := NetworkService.fresh_onSources made
  obtain ⟨timeout, loop⟩ := ControlLoop.exists_fresh begun
  exact {
    slots := network.slots fun t => sent t.set
    latest := network.latest
    given := fun s last => nomatch network.latest.symm.trans last
    records := by
      rw [network.records]
      exact nofun
    currentSet := by rw [loop.currentSet, network.latest]; rfl
    lastHandled := by rw [loop.currentSet, loop.lastHandled]; rfl }

theorem step_cycle_eq_ok {n m : NetworkedLoop} (stepped : n.step (.cycle input time send) = .ok (m, cycle)) :
    ∃ p l report, NetworkService.Polled n.network n.loop.status time p ∧
      ControlLoop.Cycled n.loop (NetworkedLoop.inputOf input p) l report ∧ m = ⟨l, p.service⟩ ∧
      cycle = some ⟨p, report⟩ := by
  have polled := n.network.polled n.loop.status time send
  cases ended : n.loop.cycle (NetworkedLoop.inputOf input (n.network.poll n.loop.status time send)) with
  | error e =>
    simp only [NetworkedLoop.step, ended] at stepped
    contradiction
  | ok result =>
    simp only [NetworkedLoop.step, ended] at stepped
    cases stepped
    exact ⟨_, _, _, polled, ControlLoop.cycled ended, rfl, rfl⟩

theorem Linked.step (linked : Linked sent cycles n) (origin : Sends sent [event])
    (stepped : n.step event = .ok (m, cycle)) : Linked sent (cycles ++ cycle.toList) m := by
  cases event with
  | arrival source set now time =>
    cases stepped
    rw [Option.toList_none, List.append_nil]
    exact linked.arrived (origin source set now time (List.mem_singleton_self _)) source now time
  | cycle input time send =>
    obtain ⟨p, l, report, polled, cycled, rfl, rfl⟩ := step_cycle_eq_ok stepped
    exact linked.cycled polled cycled

theorem run_cons_iff {n m : NetworkedLoop} : n.run (event :: rest) = .ok (m, cycles) ↔
    ∃ next cycle later, n.step event = .ok (next, cycle) ∧ next.run rest = .ok (m, later) ∧
      cycles = cycle.toList ++ later := by
  rw [NetworkedLoop.run]
  generalize n.step event = stepped
  cases stepped with
  | error e => simp [bind, Except.bind]
  | ok result =>
    obtain ⟨next, cycle⟩ := result
    cases ran : next.run rest with
    | error e => simp [bind, Except.bind, ran]
    | ok result =>
      obtain ⟨last, later⟩ := result
      constructor
      · intro whole
        simp only [bind, Except.bind, ran] at whole
        cases whole
        exact ⟨next, cycle, later, rfl, ran, rfl⟩
      · rintro ⟨_, _, _, ⟨⟩, again, rfl⟩
        cases ran.symm.trans again
        simp only [bind, Except.bind, ran]
        rfl

theorem Linked.run (linked : Linked sent before n) (origin : Sends sent events)
    (ran : n.run events = .ok (m, cycles)) : Linked sent (before ++ cycles) m := by
  induction events generalizing n before cycles with
  | nil =>
    cases ran
    rw [List.append_nil]
    exact linked
  | cons event rest ih =>
    obtain ⟨next, cycle, later, stepped, rest, rfl⟩ := run_cons_iff.mp ran
    rw [← List.append_assoc]
    exact ih (linked.step origin.head stepped) origin.tail rest

/-- What is noted when a status is sent was given before the set that the loop runs, or with it, or just now. -/
theorem Linked.origin (linked : Linked sent cycles n) (member : r ∈ n.network.take.trips.records) :
    ∃ t, sent t.set ∧ r = NetworkService.recordOf t ∧ ∀ s, n.network.latest = some s →
      t = s ∨ t.set.timeSent < s.set.timeSent ∨ s.set.timeSent < t.set.timeSent := by
  have old : r ∈ n.network.trips.records → ∃ t, sent t.set ∧ r = NetworkService.recordOf t ∧
      ∀ s, n.network.latest = some s → t = s ∨ t.set.timeSent < s.set.timeSent ∨ s.set.timeSent < t.set.timeSent := by
    intro member
    obtain ⟨t, c, last, origin, same, place⟩ := linked.records r member
    refine ⟨t, origin, same, fun s given => ?_⟩
    cases last.symm.trans given
    exact place.imp_right .inl
  rcases n.network.take_cases with kept | ⟨inbound, newest, later, taken⟩
  · rw [kept] at member
    exact old member
  · rw [taken] at member
    rcases List.mem_append.mp ((RoundTrips.record_suffix ..).subset member) with before | new
    · exact old before
    · exact ⟨inbound, linked.newest newest, List.mem_singleton.mp new, fun s given => .inr (.inr (later s given))⟩

theorem Linked.isOf (linked : Linked sent cycles n) (numbered : Numbered sent)
    (polled : NetworkService.Polled n.network n.loop.status time p)
    (stored : p.status.network.roundTrip = some r) : ∃ s, r.IsOf cycles n s := by
  rw [polled.roundTrip] at stored
  split at stored
  · obtain ⟨record, member, echoed, rfl⟩ := RoundTrips.resolve_eq_some stored
    obtain ⟨t, origin, rfl, place⟩ := linked.origin member
    rw [linked.lastHandled, linked.currentSet] at echoed
    cases given : n.network.latest with
    | none =>
      rw [given] at echoed
      exact absurd echoed (numbered.positive t.set origin)
    | some s =>
      rw [given] at echoed
      have known := linked.given s given
      rcases place s given with rfl | before | after
      · exact ⟨t, linked.latest.symm.trans given, by rw [linked.currentSet, given]; rfl, rfl, rfl, rfl⟩
      · exact absurd before (numbered.fresh t.set s.set origin known echoed)
      · exact absurd after (numbered.fresh s.set t.set known origin echoed.symm)
  · contradiction

end Onboard
