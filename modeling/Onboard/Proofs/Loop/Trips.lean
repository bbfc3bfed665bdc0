import Onboard.Proofs.Loop.Numbers
import Onboard.Proofs.Network.Reports

/-! No round trip is lost before its status goes out. A poll notes a set before the loop has run it, and the status that
names the set goes out one poll later at the earliest; until then at most one other set is noted, so that its record is
one of the last two. With numbers that tell the accepted sets apart, the first due status that names a set carries its
round trip. -/

namespace Onboard

/-- What ties a service to its polls so far. Of the set that was accepted last there is a record until a due status
names the set; other records are of sets accepted before it. -/
structure Awaits (polls : List NetworkPoll) (s : NetworkService) : Prop where
  capacity : 2 ≤ s.trips.capacity
  latest : s.latest = (acceptedSets polls).getLast?
  records : s.trips.records <:+ (acceptedSets polls).map NetworkService.recordOf
  settled : ∀ t, s.latest = some t → (s.trips.records = [] ↔ ∃ q ∈ polls, q.Echoes t.set.sequence)
  reports : AllReport polls

theorem AllReport.concat {p : NetworkPoll} (before : AllReport polls) (last : p.Reports polls) :
    AllReport (polls ++ [p]) := by
  intro earlier q later whole
  rcases concat_split whole with ⟨rfl, rfl, -⟩ | ⟨between, rfl, -⟩
  · exact last
  · exact before earlier q between rfl

/-- No status names a set before it is accepted, and neither does the status of the poll that accepts it. -/
theorem AllReport.not_echoes {p : NetworkPoll} (reports : AllReport (polls ++ [p]))
    (apart : ToldApart (acceptedSets polls ++ later)) (new : t ∈ later) :
    ∀ q ∈ polls ++ [p], ¬ q.Echoes t.set.sequence := by
  intro q member echoes
  obtain ⟨earlier, after, whole⟩ := List.append_of_mem member
  have before := congrArg List.dropLast whole
  rw [List.dropLast_concat, List.dropLast_append_of_ne_nil (List.cons_ne_nil _ _)] at before
  have part : acceptedSets earlier <+: acceptedSets polls := by
    rw [before]
    exact prefix_acceptedSets ..
  have last := (reports earlier q after whole).last_eq apart (part.trans (List.prefix_append ..))
    (List.mem_append_right _ new) echoes.lastHandled
  exact apart.ne_later (part.subset (List.mem_of_getLast? last)) new rfl

namespace Awaits

theorem opened {settings : LoopSettings} (opened : NetworkService.onSources count settings = .ok s) :
    Awaits [] s := by
  have fresh := NetworkService.fresh_onSources opened
  exact {
    capacity := NetworkService.capacity_onSources opened
    latest := fresh.latest
    records := by
      rw [fresh.records]
      exact List.nil_suffix
    settled := fun t last => nomatch fresh.latest.symm.trans last
    reports := fun earlier p later whole => absurd whole (by simp) }

theorem acceptedSets_eq (awaits : Awaits polls s) (inbound : p.inbound = s.take.latest) :
    acceptedSets (polls ++ [p]) = acceptedSets polls ++ s.fresh.toList := by
  rw [acceptedSets_concat, inbound, NetworkService.latest_take_eq]
  cases found : s.fresh with
  | none =>
    rw [Option.none_or, awaits.latest, acceptNext_last, Option.toList_none, List.append_nil]
  | some t =>
    obtain ⟨-, later⟩ := NetworkService.fresh_eq_some found
    refine acceptNext_newer fun c last => later c ?_
    rw [awaits.latest, last]

/-- The last record is that of the set accepted last; the others have other numbers. -/
theorem last_record (awaits : Awaits polls s) (apart : ToldApart (acceptedSets polls))
    (part : before ++ [r] <:+ s.trips.records) :
    ∃ c, s.latest = some c ∧ NetworkService.recordOf c = r ∧ ∀ q ∈ before, q.sequence ≠ r.sequence := by
  have whole := part.trans awaits.records
  have numbers := apart.distinct
  change ((acceptedSets polls).map (RoundTripRecord.sequence ∘ NetworkService.recordOf)).Nodup at numbers
  rw [← List.map_map] at numbers
  have distinct := numbers.sublist (whole.sublist.map RoundTripRecord.sequence)
  rw [List.map_append, List.nodup_append] at distinct
  obtain ⟨more, same⟩ := whole
  have ends := congrArg List.getLast? same
  rw [← List.append_assoc, List.getLast?_concat, List.getLast?_map, ← awaits.latest] at ends
  obtain ⟨c, last, rfl⟩ := Option.map_eq_some_iff.mp ends.symm
  refine ⟨c, last, rfl, fun q member => ?_⟩
  exact distinct.2.2 _ (List.mem_map_of_mem member) _ (List.mem_map_of_mem (List.mem_singleton_self _))

/-- The status does not name the set that this very poll accepts. -/
theorem fresh_unnamed (awaits : Awaits polls s) (apart : ToldApart (acceptedSets polls ++ s.fresh.toList))
    (named : number = (s.latest.map fun t => t.set.sequence).getD 0) :
    ∀ r ∈ s.fresh.toList.map NetworkService.recordOf, r.sequence ≠ number := by
  intro r member same
  obtain ⟨t, new, rfl⟩ := List.mem_map.mp member
  rw [named] at same
  cases last : s.latest with
  | none =>
    rw [last] at same
    exact apart.positive t (List.mem_append_right _ new) same
  | some c =>
    rw [last] at same
    have known := List.mem_of_getLast? (awaits.latest.symm.trans last)
    exact apart.ne_later known new same.symm

/-- The status names the set accepted last, and the set that this very poll accepts stays on its way. -/
theorem resolve (awaits : Awaits polls s) (apart : ToldApart (acceptedSets polls ++ s.fresh.toList))
    (named : number = (s.latest.map fun t => t.set.sequence).getD 0) (time : Float) :
    (s.take.trips.resolve number time).2.records = s.fresh.toList.map NetworkService.recordOf ∧
      ∀ r, (s.take.trips.resolve number time).1 = some r ↔
        ∃ t, s.latest = some t ∧ s.trips.records ≠ [] ∧ r = t.roundTrip time := by
  obtain ⟨kept, part, empty, taken⟩ := NetworkService.trips_take awaits.capacity
  rcases List.eq_nil_or_concat kept with rfl | ⟨before, r, rfl⟩
  · -- The record of the set that is named has gone already.
    rw [taken, RoundTrips.resolve_absent (awaits.fresh_unnamed apart named)]
    refine ⟨rfl, fun r => ⟨nofun, ?_⟩⟩
    rintro ⟨t, -, noted, -⟩
    exact absurd (empty.mp rfl) noted
  · -- It is the last of the old records, since a new one never takes its place.
    rw [List.concat_eq_append] at part empty taken
    obtain ⟨c, last, rfl, absent⟩ := awaits.last_record (apart.weaken (List.prefix_append ..)) part
    have noted : s.trips.records ≠ [] := fun gone => absurd (empty.mpr gone) (by simp)
    have same : (NetworkService.recordOf c).sequence = number := by
      rw [named, last]
      rfl
    have split : s.take.trips.records = before ++ NetworkService.recordOf c ::
        s.fresh.toList.map NetworkService.recordOf := by
      rw [taken, List.append_assoc, List.singleton_append]
    rw [RoundTrips.resolve_found split (same ▸ absent) same]
    refine ⟨rfl, fun r => ⟨?_, ?_⟩⟩
    · rintro ⟨⟩
      exact ⟨c, last, noted, rfl⟩
    · rintro ⟨t, again, -, rfl⟩
      cases last.symm.trans again
      rfl

section
variable (awaits : Awaits polls s) (polled : NetworkService.Polled s status time p)
  (named : status.lastHandled = (s.latest.map fun t => t.set.sequence).getD 0)
  (apart : ToldApart (acceptedSets polls ++ s.fresh.toList))
include awaits polled named apart

/-- One more poll, with the status that names the set accepted last. -/
theorem reports_next : p.Reports polls where
  lastHandled := by
    rw [polled.lastHandled, named, awaits.latest]
  roundTrip := by
    intro r
    rw [polled.roundTrip]
    cases due : p.isDue with
    | false =>
      refine ⟨nofun, ?_⟩
      rintro ⟨t, -, sent, -⟩
      exact absurd sent Bool.false_ne_true
    | true =>
      rw [if_pos rfl, (awaits.resolve apart named time).2, polled.timeSent due]
      refine exists_congr fun t => ?_
      rw [← awaits.latest]
      refine and_congr_right fun last => ?_
      rw [Ne, awaits.settled t last]
      simp

/-- A set that the poll accepts is noted, and no status has named it yet. -/
theorem settled_accepted (fresh : s.fresh = some t) :
    p.service.trips.records = [] ↔ ∃ q ∈ polls ++ [p], q.Echoes t.set.sequence := by
  have reports := awaits.reports.concat (awaits.reports_next polled named apart)
  have unnamed := reports.not_echoes apart (t := t) (by rw [fresh]; exact List.mem_singleton_self t)
  refine iff_of_false ?_ fun ⟨q, member, echoes⟩ => unnamed q member echoes
  rw [polled.trips, RoundTrips.settled]
  split
  · rw [(awaits.resolve apart named time).1, fresh]
    exact List.cons_ne_nil _ _
  · obtain ⟨kept, -, -, taken⟩ := NetworkService.trips_take awaits.capacity
    rw [taken, fresh]
    exact fun gone => absurd (List.append_eq_nil_iff.mp gone).2 (List.cons_ne_nil _ _)

/-- If the poll accepts none, the record of the last one accepted goes with the first status that is due. -/
theorem settled_kept (fresh : s.fresh = none) (last : s.latest = some t) :
    p.service.trips.records = [] ↔ ∃ q ∈ polls ++ [p], q.Echoes t.set.sequence := by
  obtain ⟨kept, -, empty, taken⟩ := NetworkService.trips_take awaits.capacity
  rw [polled.trips, RoundTrips.settled]
  cases due : p.isDue with
  | true =>
    rw [if_pos rfl, (awaits.resolve apart named time).1, fresh]
    refine iff_of_true rfl ⟨p, List.mem_append_right _ (List.mem_singleton_self p), due, ?_⟩
    rw [polled.lastHandled, named, last]
    rfl
  | false =>
    rw [if_neg Bool.false_ne_true, taken, fresh, Option.toList_none, List.map_nil, List.append_nil, empty,
      awaits.settled t last]
    constructor
    · rintro ⟨q, member, echoes⟩
      exact ⟨q, List.mem_append_left _ member, echoes⟩
    · rintro ⟨q, member, echoes⟩
      rcases List.mem_append.mp member with old | new
      · exact ⟨q, old, echoes⟩
      · cases List.mem_singleton.mp new
        exact absurd (due.symm.trans echoes.isDue) Bool.false_ne_true

end

theorem next (awaits : Awaits polls s) (polled : NetworkService.Polled s status time p)
    (named : status.lastHandled = (s.latest.map fun t => t.set.sequence).getD 0)
    (apart : ToldApart (acceptedSets (polls ++ [p]))) : Awaits (polls ++ [p]) p.service := by
  have accepted := awaits.acceptedSets_eq polled.inbound
  rw [accepted] at apart
  have reports := awaits.reports.concat (awaits.reports_next polled named apart)
  obtain ⟨kept, part, empty, taken⟩ := NetworkService.trips_take awaits.capacity
  exact {
    capacity := by
      rw [polled.trips, RoundTrips.capacity_settled, taken]
      exact awaits.capacity
    latest := by
      rw [polled.latest, NetworkService.latest_take_eq, accepted, awaits.latest, List.getLast?_append]
      cases s.fresh <;> rfl
    records := by
      rw [polled.trips, accepted, List.map_append]
      refine (RoundTrips.settled_suffix ..).trans ?_
      rw [taken]
      obtain ⟨more, same⟩ := part.trans awaits.records
      exact ⟨more, by rw [← same, List.append_assoc]⟩
    settled := by
      intro t last
      rw [polled.latest, NetworkService.latest_take_eq] at last
      cases fresh : s.fresh with
      | none =>
        rw [fresh] at last
        exact awaits.settled_kept polled named apart fresh last
      | some u =>
        rw [fresh] at last
        cases last
        exact awaits.settled_accepted polled named apart fresh
    reports := reports }

end Awaits

theorem Linked.named (linked : Linked sent cycles n) :
    n.loop.status.lastHandled = (n.network.latest.map fun t => t.set.sequence).getD 0 := by
  rw [linked.lastHandled, linked.currentSet, Option.map_map]
  rfl

theorem Awaits.step (awaits : Awaits (before.map NetworkedCycle.poll) n.network) (linked : Linked sent before n)
    (stepped : n.step event = .ok (m, cycle))
    (apart : ToldApart (acceptedSets ((before ++ cycle.toList).map NetworkedCycle.poll))) :
    Awaits ((before ++ cycle.toList).map NetworkedCycle.poll) m.network := by
  cases event with
  | arrival source set now time =>
    cases stepped
    rw [Option.toList_none, List.append_nil]
    exact ⟨awaits.capacity, awaits.latest, awaits.records, awaits.settled, awaits.reports⟩
  | cycle input time send =>
    obtain ⟨p, l, report, polled, -, rfl, rfl⟩ := step_cycle_eq_ok stepped
    rw [List.map_append] at apart ⊢
    exact awaits.next polled linked.named apart

theorem Awaits.run (awaits : Awaits (before.map NetworkedCycle.poll) n.network) (linked : Linked sent before n)
    (origin : Sends sent events) (ran : n.run events = .ok (m, cycles))
    (apart : ToldApart (acceptedSets ((before ++ cycles).map NetworkedCycle.poll))) :
    Awaits ((before ++ cycles).map NetworkedCycle.poll) m.network := by
  induction events generalizing n before cycles with
  | nil =>
    cases ran
    rw [List.append_nil]
    exact awaits
  | cons event rest ih =>
    obtain ⟨next, cycle, later, stepped, rest, rfl⟩ := run_cons_iff.mp ran
    rw [← List.append_assoc] at apart ⊢
    have part := apart
    rw [List.map_append] at part
    exact ih (awaits.step linked stepped (part.weaken (prefix_acceptedSets ..))) (linked.step origin.head stepped)
      origin.tail rest apart

/-- As long as numbers tell the accepted sets apart, the round trip of each is in the first status due that names it.
The last poll may be one whose cycle did not come to its end. A round trip counts as reported even if the network does
not take its status, and is not reported again then; when failed sends lose none is said by
`failed_sends_lose_nothing_iff`. -/
theorem round_trips_reported {settings : LoopSettings}
    (opened : NetworkedLoop.new robot settings count files start = .ok first)
    (ran : first.run events = .ok (n, cycles))
    (ends : last = [] ∨ ∃ time send, last = [n.network.poll n.loop.status time send])
    (apart : ToldApart (acceptedSets (cycles.map NetworkedCycle.poll ++ last))) :
    ReportsRoundTrips (cycles.map NetworkedCycle.poll ++ last) := by
  have origin : Sends (fun _ => True) events := fun _ _ _ _ _ => trivial
  have begun := Linked.opened (fun _ => True) opened
  have linked := begun.run origin ran
  have idle : Awaits (List.map NetworkedCycle.poll []) first.network := Awaits.opened (new_eq_ok opened).1
  have awaits := idle.run begun origin ran (apart.weaken (prefix_acceptedSets ..))
  refine reportsRoundTrips apart ?_
  rcases ends with rfl | ⟨time, send, rfl⟩
  · rw [List.append_nil]
    exact awaits.reports
  · exact (awaits.next (n.network.polled n.loop.status time send) linked.named apart).reports

/-- Two sets, and for each a status more than it needs. -/
def NetworkedEvent.repeating : List NetworkedEvent :=
  [.arrival 0 ⟨1, 1.0, .empty⟩ 0 0.0, .cycle (.quiet 0) 0.0 fun _ => .ok (), .cycle (.quiet 0) 0.5 fun _ => .ok (),
    .arrival 0 ⟨2, 2.0, .empty⟩ 0 1.0, .cycle (.quiet 0) 1.5 fun _ => .ok (), .cycle (.quiet 0) 2.0 fun _ => .ok ()]

/-- The polls of a run, and one after it. -/
def NetworkedLoop.pollsAfter (n : NetworkedLoop) (cycles : List NetworkedCycle) (time : Float) : List NetworkPoll :=
  cycles.map NetworkedCycle.poll ++ [n.network.poll n.loop.status time fun _ => .ok ()]

/-- Each round trip is in the first status that names its set. The statuses that name the sets again carry none. -/
theorem round_trips_of_two_sets :
    ∃ first n cycles, NetworkedLoop.new .seventh .secondly 1 (fun _ => none) 0 = .ok first ∧
      first.run NetworkedEvent.repeating = .ok (n, cycles) ∧
      (acceptedSets (n.pollsAfter cycles 2.5)).map (fun s => s.set.sequence) = [1, 2] ∧
      ReportsRoundTrips (n.pollsAfter cycles 2.5) ∧
      (n.pollsAfter cycles 2.5).map (fun p => (p.isDue, p.status.lastHandled, p.status.network.roundTrip)) =
        [(true, 0, none), (true, 1, some ⟨1, 1.0, 0.0, 0.5⟩), (true, 1, none), (true, 2, some ⟨2, 2.0, 1.0, 2.0⟩),
          (true, 2, none)] := by
  have shown : (NetworkedLoop.seventhRun? NetworkedEvent.repeating).map (fun run =>
      ((acceptedSets (run.1.pollsAfter run.2 2.5)).map (fun s => s.set.sequence),
        (run.1.pollsAfter run.2 2.5).map fun p => (p.isDue, p.status.lastHandled, p.status.network.roundTrip))) =
      some ([1, 2], [(true, 0, none), (true, 1, some ⟨1, 1.0, 0.0, 0.5⟩), (true, 1, none),
        (true, 2, some ⟨2, 2.0, 1.0, 2.0⟩), (true, 2, none)]) := by
    decide +kernel
  obtain ⟨⟨n, cycles⟩, found, shown⟩ := Option.map_eq_some_iff.mp shown
  obtain ⟨accepted, reported⟩ := Prod.mk.inj shown
  obtain ⟨first, opened, ran⟩ := exists_seventhRun found
  have apart : ToldApart (acceptedSets (n.pollsAfter cycles 2.5)) := by
    refine ⟨by rw [accepted]; decide, fun s member zero => ?_⟩
    have named : s.set.sequence ∈ [1, 2] := accepted ▸ List.mem_map_of_mem member
    rw [zero] at named
    exact absurd named (by decide)
  have reports := round_trips_reported opened ran (.inr ⟨2.5, fun _ => .ok (), rfl⟩) apart
  exact ⟨first, n, cycles, opened, ran, accepted, reports, reported⟩

end Onboard
