import Onboard.Proofs.Loop.Echo
import Onboard.Proofs.Network.Limiter

/-! Which numbers make a status report a round trip of a set that the loop does not run: nought, which a status also
says when there is no set, and the number of an earlier set, whose status goes out when the later one is noted. -/

namespace Onboard

theorem percentage_single (number : UInt64) (capacity : Nat) :
    ∃ loss, LossWindow.percentage ⟨[number], capacity⟩ = .ok loss := by
  refine LossWindow.percentage_ok (fun n => n = number) ?_ fun n => List.mem_singleton.mp
  rintro ⟨rfl, greatest⟩
  exact absurd greatest (by decide)

/-- A source to which one number has come, with the set it brought last. -/
def PrimitiveSource.heard (s : InboundSet) : PrimitiveSource :=
  ⟨⟨[s.set.sequence], 100⟩, some s.set.timeSent, some s, none⟩

theorem deliver_silent (a : PrimitiveSet) (now : Instant) (time : Float) :
    ∃ s, s.set = a ∧ PrimitiveSource.silent.deliver a now time = .heard s := by
  obtain ⟨loss, estimate⟩ := percentage_single a.sequence 100
  refine ⟨⟨a, now, time, loss⟩, rfl, ?_⟩
  have window : PrimitiveSource.silent.window.record a.sequence = ⟨[a.sequence], 100⟩ := rfl
  simp only [PrimitiveSource.deliver, window, estimate]
  rfl

theorem deliver_heard {s : InboundSet} {b : PrimitiveSet} (same : s.set.sequence = b.sequence)
    (later : s.set.timeSent < b.timeSent) (now : Instant) (time : Float) :
    ∃ t, t.set = b ∧ (PrimitiveSource.heard s).deliver b now time = .heard t := by
  obtain ⟨loss, estimate⟩ := percentage_single b.sequence 100
  refine ⟨⟨b, now, time, loss⟩, rfl, ?_⟩
  have window : (PrimitiveSource.heard s).window.record b.sequence = ⟨[b.sequence], 100⟩ := by
    rw [← same]
    exact if_pos (by simp [PrimitiveSource.heard])
  have newest : (PrimitiveSource.heard s).newestTime = some s.set.timeSent := rfl
  have sound : (PrimitiveSource.heard s).fault = none := rfl
  simp only [PrimitiveSource.deliver, window, newest, sound, estimate, later]
  rfl

/-- A service on one source that sends a status with every poll. -/
structure Stands (x : PrimitiveSource) (last : Option InboundSet) (records : List RoundTripRecord)
    (s : NetworkService) : Prop where
  sources : s.sources = [x]
  latest : s.latest = last
  trips : s.trips = ⟨records, 4⟩
  floor : s.limiter.floor = 1

theorem Stands.delivered (stands : Stands x last records s) (set : PrimitiveSet) (now : Instant) (time : Float) :
    Stands (x.deliver set now time) last records (s.deliver 0 set now time) where
  sources := by
    rw [NetworkService.deliver, stands.sources]
    rfl
  latest := stands.latest
  trips := stands.trips
  floor := stands.floor

theorem Stands.newest (stands : Stands (.heard t) last records s) : s.newest = some t := by
  rw [NetworkService.newest, stands.sources]
  rfl

theorem Stands.takes (stands : Stands (.heard t) last [] s)
    (later : ∀ c, last = some c → c.set.timeSent < t.set.timeSent) :
    Stands (.heard t) (some t) [NetworkService.recordOf t] s.take := by
  have fresh : s.fresh = some t := by
    rw [NetworkService.fresh, stands.newest, stands.latest]
    cases last with
    | none => rfl
    | some c => exact if_pos (decide_eq_true (later c rfl))
  rw [NetworkService.take, fresh]
  refine ⟨stands.sources, rfl, ?_, stands.floor⟩
  rw [stands.trips]
  rfl

theorem Stands.keeps (stands : Stands (.heard t) (some t) records s) : s.take = s := by
  rcases s.take_cases with kept | ⟨inbound, newest, later, -⟩
  · exact kept
  · cases stands.newest.symm.trans newest
    exact absurd (later t stands.latest) (Double.lt_irrefl _)

theorem one_le_nextCount (l : StatusLimiter) : 1 ≤ l.nextCount := by
  rw [UInt32.le_iff_toNat_le, l.toNat_nextCount]
  exact Nat.le_min.mpr ⟨Nat.le_add_left .., by decide⟩

theorem poll_due {s : NetworkService} (floor : s.take.limiter.floor = 1) (status : RobotStatus) (time : Float)
    (send : RobotStatus → Except DatagramError Unit) :
    (s.poll status time send).isDue = true ∧ (s.poll status time send).service.limiter.floor = 1 := by
  have due : ∀ status, s.take.limiter.shouldSend status =
      (true, ⟨s.take.limiter.floor, 0, some (StatusDigest.of status)⟩) := by
    intro status
    refine if_pos (.inr ?_)
    rw [floor]
    exact one_le_nextCount _
  unfold NetworkService.poll
  dsimp only
  rw [due]
  exact ⟨rfl, floor⟩

/-- With every poll a status goes out. -/
theorem Stands.polled {s : NetworkService} (stands : Stands x last records s.take) (status : RobotStatus)
    (time : Float) (send : RobotStatus → Except DatagramError Unit) :
    (s.poll status time send).status.network.roundTrip =
        ((⟨records, 4⟩ : RoundTrips).resolve status.lastHandled time).1 ∧
      Stands x last ((⟨records, 4⟩ : RoundTrips).resolve status.lastHandled time).2.records
        (s.poll status time send).service := by
  obtain ⟨due, floor⟩ := poll_due stands.floor status time send
  have polled := s.polled status time send
  have roundTrip := polled.roundTrip
  have trips := polled.trips
  rw [due, stands.trips] at roundTrip trips
  refine ⟨roundTrip, polled.sources.trans stands.sources, polled.latest.trans stands.latest, ?_, floor⟩
  rw [trips]
  unfold RoundTrips.settled RoundTrips.resolve
  rw [if_pos rfl]
  split <;> rfl

theorem resolve_other {r : RoundTripRecord} (other : r.sequence ≠ number) (time : Float) :
    (⟨[r], capacity⟩ : RoundTrips).resolve number time = (none, ⟨[r], capacity⟩) :=
  RoundTrips.resolve_absent (fun _ member => List.mem_singleton.mp member ▸ other) time

theorem resolve_same {r : RoundTripRecord} (same : r.sequence = number) (time : Float) :
    (⟨[r], capacity⟩ : RoundTrips).resolve number time =
      (some ⟨r.sequence, r.aiSent, r.robotReceived, time⟩, ⟨[], capacity⟩) := by
  have single : (⟨[r], capacity⟩ : RoundTrips).records = [] ++ r :: [] := rfl
  exact RoundTrips.resolve_found single nofun same time

/-- A cycle of a loop that has not run for too long comes to its end. -/
theorem step_cycle (n : NetworkedLoop) (settings : n.loop.settings = .secondly)
    (bound : n.loop.store.cycles.toNat + 1 < 0x10000000000000000) (input : CycleInput) (time : Float)
    (send : RobotStatus → Except DatagramError Unit) :
    ∃ l report, n.step (.cycle input time send) =
        .ok (⟨l, (n.network.poll n.loop.status time send).service⟩,
          some ⟨n.network.poll n.loop.status time send, report⟩) ∧
      ControlLoop.Cycled n.loop (NetworkedLoop.inputOf input (n.network.poll n.loop.status time send)) l report := by
  obtain ⟨l, report, ended⟩ := n.loop.cycle_ok
    (NetworkedLoop.inputOf input (n.network.poll n.loop.status time send))
    (by rw [settings]; exact ControlLoop.timeoutOf_second) bound
  refine ⟨l, report, ?_, ControlLoop.cycled ended⟩
  simp only [NetworkedLoop.step, ended]
  rfl

theorem opened_stands : ∃ n, NetworkedLoop.new .seventh .secondly 1 (fun _ => none) 0 = .ok n ∧
    Stands .silent none [] n.network ∧
    ControlLoop.Fresh .seventh .secondly nanosPerSecond 0 n.loop := by
  have time : ControlLoop.timeoutOf LoopSettings.secondly.packetTimeoutMs = _ := ControlLoop.timeoutOf_second
  obtain ⟨l, lines, begun, fresh⟩ := ControlLoop.new_ok .seventh (fun _ => none) 0 time
  refine ⟨⟨l, [.silent], none, ⟨[], 4⟩, .new 1.0 1.0⟩, ?_, ?_, fresh⟩
  · simp only [NetworkedLoop.new, begun]
    rfl
  · have floor : (StatusLimiter.new 1.0 1.0).floor = 1 := by decide +kernel
    exact ⟨rfl, rfl, rfl, floor⟩

/-- Where a run leads a new loop of the seventh robot, and its cycles. -/
def NetworkedLoop.seventhRun? (events : List NetworkedEvent) : Option (NetworkedLoop × List NetworkedCycle) :=
  match NetworkedLoop.new .seventh .secondly 1 (fun _ => none) 0 with
  | .error _ => none
  | .ok first => (first.run events).toOption

theorem exists_seventhRun (found : NetworkedLoop.seventhRun? events = some (n, cycles)) :
    ∃ first, NetworkedLoop.new .seventh .secondly 1 (fun _ => none) 0 = .ok first ∧
      first.run events = .ok (n, cycles) := by
  unfold NetworkedLoop.seventhRun? at found
  split at found
  · contradiction
  · next first opened =>
    cases ran : first.run events with
    | error e =>
      rw [ran] at found
      contradiction
    | ok result =>
      rw [ran] at found
      cases found
      exact ⟨first, opened, ran⟩

/-- A set numbered nought is taken for the set of a status that names none. -/
theorem misled_by_zero {a : PrimitiveSet} (zero : a.sequence = 0) :
    ∃ first n r, NetworkedLoop.new .seventh .secondly 1 (fun _ => none) 0 = .ok first ∧
      first.run [.arrival 0 a 0 0.0] = .ok (n, []) ∧ n.loop.currentSet = none ∧
      (n.network.poll n.loop.status 0.0 fun _ => .ok ()).status.network.roundTrip = some r := by
  obtain ⟨first, opened, stands, fresh⟩ := opened_stands
  obtain ⟨s, brought, heard⟩ := deliver_silent a 0 0.0
  have noted := stands.delivered a 0 0.0
  rw [heard] at noted
  have named : (NetworkService.recordOf s).sequence = first.loop.status.lastHandled := by
    rw [fresh.lastHandled, ← zero, ← brought]
    rfl
  obtain ⟨stored, -⟩ := (noted.takes nofun).polled first.loop.status 0.0 fun _ => .ok ()
  rw [resolve_same named] at stored
  exact ⟨first, _, _, opened, rfl, fresh.currentSet, stored⟩

/-- A loop that runs a set after so many cycles. -/
structure Runs (s : InboundSet) (records : List RoundTripRecord) (count : Nat) (n : NetworkedLoop) : Prop where
  stands : Stands (.heard s) (some s) records n.network
  settings : n.loop.settings = .secondly
  cycles : n.loop.store.cycles.toNat = count
  currentSet : n.loop.currentSet = some s.set
  lastHandled : n.loop.status.lastHandled = s.set.sequence

theorem runs_cycle (n : NetworkedLoop) (count : Nat) (current : Option InboundSet)
    (settings : n.loop.settings = .secondly) (cycles : n.loop.store.cycles.toNat = count)
    (bound : count + 1 < 0x10000000000000000)
    (stands : Stands (.heard s) (some s) records n.network.take)
    (same : n.loop.currentSet = current.map InboundSet.set)
    (newer : NetworkService.newer current (some s) = some s) :
    ∃ m c, n.step (.cycle (.quiet 0) 0.0 fun _ => .ok ()) = .ok (m, some c) ∧
      Runs s ((⟨records, 4⟩ : RoundTrips).resolve n.loop.status.lastHandled 0.0).2.records (count + 1) m := by
  obtain ⟨l, report, stepped, cycled⟩ := step_cycle n settings (cycles ▸ bound) (.quiet 0) 0.0 fun _ => .ok ()
  obtain ⟨-, after⟩ := stands.polled n.loop.status 0.0 fun _ => .ok ()
  have inbound := (n.network.polled n.loop.status 0.0 fun _ => .ok ()).inbound
  rw [stands.latest] at inbound
  have currentSet : l.currentSet = some s.set := by
    rw [cycled.currentSet_eq same]
    change (NetworkService.newer current (n.network.poll n.loop.status 0.0 fun _ => .ok ()).inbound).map _ = _
    rw [inbound, newer]
    rfl
  refine ⟨_, _, stepped, after, cycled.settings.trans settings, ?_, currentSet, ?_⟩
  · rw [← cycles]
    exact cycled.cycles
  · change l.status.lastHandled = _
    rw [cycled.lastHandled, currentSet]
    rfl

/-- A set that bears the number of an earlier one is taken for it. -/
theorem misled_by_return {a b : PrimitiveSet} (positive : a.sequence ≠ 0) (same : a.sequence = b.sequence)
    (later : a.timeSent < b.timeSent) :
    ∃ first n cycles r, NetworkedLoop.new .seventh .secondly 1 (fun _ => none) 0 = .ok first ∧
      first.run [.arrival 0 a 0 0.0, .cycle (.quiet 0) 0.0 fun _ => .ok (), .cycle (.quiet 0) 0.0 fun _ => .ok (),
        .arrival 0 b 0 0.0] = .ok (n, cycles) ∧ n.loop.currentSet = some a ∧
      (n.network.poll n.loop.status 0.0 fun _ => .ok ()).status.network.roundTrip = some r ∧
      r.aiSent = b.timeSent := by
  obtain ⟨first, opened, stands, fresh⟩ := opened_stands
  obtain ⟨s, rfl, heard⟩ := deliver_silent a 0 0.0
  have noted := stands.delivered s.set 0 0.0
  rw [heard] at noted
  -- The first cycle follows the set, and its poll sends a status that names none.
  obtain ⟨n, c, followed, runs⟩ := runs_cycle { first with network := first.network.deliver 0 s.set 0 0.0 } 0 none
    fresh.settings (by rw [fresh.cycles]; rfl) (by decide) (noted.takes nofun) fresh.currentSet rfl
  have unnamed : (NetworkService.recordOf s).sequence ≠ first.loop.status.lastHandled := by
    rw [fresh.lastHandled]
    exact positive
  simp only [resolve_other unnamed] at runs
  -- The second one's poll completes the set's own round trip.
  obtain ⟨m, d, settled, rests⟩ := runs_cycle n 1 (some s) runs.settings runs.cycles (by decide)
    (by rw [runs.stands.keeps]; exact runs.stands) runs.currentSet (newer_self (some s))
  have named : (NetworkService.recordOf s).sequence = n.loop.status.lastHandled := by
    rw [runs.lastHandled]
    rfl
  simp only [resolve_same named] at rests
  obtain ⟨t, rfl, again⟩ := deliver_heard same later 0 0.0
  have last := rests.stands.delivered t.set 0 0.0
  rw [again] at last
  -- The later set is noted just before the status of the earlier one goes out.
  have taken := last.takes fun c held => by
    cases held
    exact later
  obtain ⟨stored, -⟩ := taken.polled m.loop.status 0.0 fun _ => .ok ()
  have misnamed : (NetworkService.recordOf t).sequence = m.loop.status.lastHandled := by
    rw [rests.lastHandled, same]
    rfl
  rw [resolve_same misnamed] at stored
  refine ⟨first, { m with network := m.network.deliver 0 t.set 0 0.0 }, [c, d], _, opened, ?_, rests.currentSet,
    stored, rfl⟩
  exact run_cons_iff.mpr ⟨_, none, _, rfl, run_cons_iff.mpr ⟨n, c, _, followed,
    run_cons_iff.mpr ⟨m, d, [], settled, rfl, rfl⟩, rfl⟩, rfl⟩

/-- A round trip that a poll reports is always of the set that the loop runs, if and only if no set is numbered
nought and none bears the number of one that was sent before it. -/
theorem round_trips_are_of_current_iff (sent : PrimitiveSet → Prop) :
    (∀ robot settings count files start first events n cycles,
        NetworkedLoop.new robot settings count files start = .ok first → Sends sent events →
        first.run events = .ok (n, cycles) → ∀ time send r,
        (n.network.poll n.loop.status time send).status.network.roundTrip = some r → ∃ s, r.IsOf cycles n s) ↔
      Numbered sent := by
  constructor
  · intro sound
    have positive : ∀ a, sent a → a.sequence ≠ 0 := by
      intro a origin zero
      obtain ⟨first, n, r, opened, ran, idle, stored⟩ := misled_by_zero zero
      have sends : Sends sent [.arrival 0 a 0 0.0] := by
        intro source set now time member
        cases List.mem_singleton.mp member
        exact origin
      obtain ⟨s, isOf⟩ := sound _ _ _ _ _ first _ n _ opened sends ran _ _ r stored
      exact nomatch idle.symm.trans isOf.current
    refine ⟨positive, fun a b known origin same later => ?_⟩
    obtain ⟨first, n, cycles, r, opened, ran, runs, stored, mistaken⟩ := misled_by_return (positive a known) same later
    have sends : Sends sent [.arrival 0 a 0 0.0, .cycle (.quiet 0) 0.0 fun _ => .ok (),
        .cycle (.quiet 0) 0.0 fun _ => .ok (), .arrival 0 b 0 0.0] := by
      intro source set now time member
      simp only [List.mem_cons, reduceCtorEq, List.not_mem_nil, or_false, false_or] at member
      rcases member with first | second
      · cases first
        exact known
      · cases second
        exact origin
    obtain ⟨s, isOf⟩ := sound _ _ _ _ _ first _ n cycles opened sends ran _ _ r stored
    cases runs.symm.trans isOf.current
    rw [← mistaken, isOf.aiSent] at later
    exact Double.lt_irrefl _ later
  · intro numbered robot settings count files start first events n cycles opened sends ran time send r stored
    have linked := (Linked.opened sent opened).run sends ran
    exact linked.isOf numbered (n.network.polled n.loop.status time send) stored

/-- A loop that has not run any set reports the round trip of one. -/
theorem round_trip_of_no_set :
    ∃ first n r, NetworkedLoop.new .seventh .secondly 1 (fun _ => none) 0 = .ok first ∧
      first.run [.arrival 0 ⟨0, 1.0, .empty⟩ 0 0.0] = .ok (n, []) ∧
      (n.network.poll n.loop.status 0.0 fun _ => .ok ()).status.network.roundTrip = some r ∧
      ¬ ∃ s, r.IsOf [] n s := by
  obtain ⟨first, n, r, opened, ran, idle, stored⟩ := misled_by_zero (a := ⟨0, 1.0, .empty⟩) rfl
  refine ⟨first, n, r, opened, ran, stored, ?_⟩
  rintro ⟨s, isOf⟩
  exact nomatch idle.symm.trans isOf.current

end Onboard
