import Onboard.Proofs.Network.Newest
import Onboard.Proofs.Network.RoundTrips

/-! What polls report. Of the sets that polls give, those are accepted that were sent later than the ones before. If
each status names the set accepted last, and carries its round trip the first time that it is due, then round trips
are reported once, in the order of their sets. A status that is due may still not get out. -/

namespace Onboard

/-- One more set is handed over; it is accepted if it is the first one or was sent later than the last accepted. -/
def acceptNext (accepted : List InboundSet) (given : Option InboundSet) : List InboundSet :=
  match given with
  | some s => if accepted.getLast?.all fun c => s.set.isNewerThan c.set then accepted ++ [s] else accepted
  | none => accepted

/-- The sets that were accepted of those that polls gave. -/
def acceptedSets (polls : List NetworkPoll) : List InboundSet :=
  (polls.map NetworkPoll.inbound).foldl acceptNext []

/-- Numbers tell the sets apart from each other and from none. -/
structure ToldApart (sets : List InboundSet) : Prop where
  distinct : (sets.map fun s => s.set.sequence).Nodup
  positive : ∀ s ∈ sets, s.set.sequence ≠ 0

/-- The poll has a status to send that names a set by this number, whether or not the network takes it. -/
structure NetworkPoll.Echoes (p : NetworkPoll) (number : UInt64) : Prop where
  isDue : p.isDue = true
  lastHandled : p.status.lastHandled = number

/-- The way of a set and of the status that names it. -/
def InboundSet.roundTrip (s : InboundSet) (statusSent : Float) : RoundTrip :=
  ⟨s.set.sequence, s.set.timeSent, s.receivedTime, statusSent⟩

/-- What a poll has to say after others: its status names the set accepted last, and carries that set's round trip if
it is the first one due that names it. -/
structure NetworkPoll.Reports (p : NetworkPoll) (earlier : List NetworkPoll) : Prop where
  lastHandled : p.status.lastHandled = ((acceptedSets earlier).getLast?.map fun s => s.set.sequence).getD 0
  roundTrip : ∀ r, p.status.network.roundTrip = some r ↔ ∃ s, (acceptedSets earlier).getLast? = some s ∧
    p.isDue = true ∧ (∀ q ∈ earlier, ¬ q.Echoes s.set.sequence) ∧ r = s.roundTrip p.status.timeSent

/-- Each of some polls has this to say after those before it. -/
def AllReport (polls : List NetworkPoll) : Prop :=
  ∀ earlier p later, polls = earlier ++ p :: later → p.Reports earlier

/-- Every set's round trip is in the first status due that names the set and in no other one, whether or not the
network takes that status; and round trips are reported in the order in which the sets were sent. -/
structure ReportsRoundTrips (polls : List NetworkPoll) : Prop where
  first : ∀ s ∈ acceptedSets polls, ∀ earlier p later, polls = earlier ++ p :: later → p.Echoes s.set.sequence →
    (∀ q ∈ earlier, ¬ q.Echoes s.set.sequence) → p.status.network.roundTrip = some (s.roundTrip p.status.timeSent)
  later : ∀ s ∈ acceptedSets polls, ∀ earlier p later, polls = earlier ++ p :: later →
    p.status.lastHandled = s.set.sequence → (∃ q ∈ earlier, q.Echoes s.set.sequence) →
    p.status.network.roundTrip = none
  increasing : (polls.filterMap fun p => p.status.network.roundTrip).Pairwise fun r q => r.aiSent < q.aiSent

theorem acceptedSets_concat (polls : List NetworkPoll) (p : NetworkPoll) :
    acceptedSets (polls ++ [p]) = acceptNext (acceptedSets polls) p.inbound := by
  rw [acceptedSets, List.map_append, List.foldl_append]
  rfl

theorem acceptNext_cases (accepted : List InboundSet) (given : Option InboundSet) :
    acceptNext accepted given = accepted ∨ ∃ s, given = some s ∧
      (∀ c, accepted.getLast? = some c → c.set.timeSent < s.set.timeSent) ∧
        acceptNext accepted given = accepted ++ [s] := by
  unfold acceptNext
  split
  · next s =>
    split
    · next newer =>
      refine .inr ⟨s, rfl, fun c last => ?_, rfl⟩
      rw [last] at newer
      exact of_decide_eq_true newer
    · exact .inl rfl
  · exact .inl rfl

theorem acceptNext_newer {s : InboundSet} (newer : ∀ c, accepted.getLast? = some c → c.set.timeSent < s.set.timeSent) :
    acceptNext accepted (some s) = accepted ++ [s] := by
  refine if_pos ?_
  rw [Option.all_eq_true]
  exact fun c last => decide_eq_true (newer c last)

theorem acceptNext_last (accepted : List InboundSet) : acceptNext accepted accepted.getLast? = accepted := by
  rcases acceptNext_cases accepted accepted.getLast? with same | ⟨s, last, newer, -⟩
  · exact same
  · exact absurd (newer s last) (Double.lt_irrefl _)

theorem prefix_acceptNext (accepted : List InboundSet) (given : Option InboundSet) :
    accepted <+: acceptNext accepted given := by
  rcases acceptNext_cases accepted given with same | ⟨s, -, -, taken⟩
  · rw [same]
  · rw [taken]
    exact List.prefix_append ..

theorem prefix_acceptedSets (polls later : List NetworkPoll) :
    acceptedSets polls <+: acceptedSets (polls ++ later) := by
  induction later using List.reverseRecOn with
  | nil => rw [List.append_nil]
  | append_singleton later p ih =>
    rw [← List.append_assoc, acceptedSets_concat]
    exact ih.trans (prefix_acceptNext ..)

theorem before_last {sets : List InboundSet} (increasing : sets.Pairwise fun a b => a.set.timeSent < b.set.timeSent)
    (member : s ∈ sets) (last : sets.getLast? = some c) : s = c ∨ s.set.timeSent < c.set.timeSent := by
  obtain ⟨before, rfl⟩ := List.getLast?_eq_some_iff.mp last
  rcases List.mem_append.mp member with early | single
  · exact .inr ((List.pairwise_append.mp increasing).2.2 s early c (List.mem_singleton_self c))
  · exact .inl (List.mem_singleton.mp single)

/-- Each set accepted was sent later than those before it. -/
theorem pairwise_acceptedSets (polls : List NetworkPoll) :
    (acceptedSets polls).Pairwise fun a b => a.set.timeSent < b.set.timeSent := by
  induction polls using List.reverseRecOn with
  | nil => exact .nil
  | append_singleton polls p ih =>
    rw [acceptedSets_concat]
    rcases acceptNext_cases (acceptedSets polls) p.inbound with same | ⟨s, -, newer, taken⟩
    · rw [same]
      exact ih
    · rw [taken]
      refine List.pairwise_append.mpr ⟨ih, List.pairwise_singleton .., fun a member b single => ?_⟩
      cases List.mem_singleton.mp single
      have some : acceptedSets polls ≠ [] := List.ne_nil_of_mem member
      have last := List.getLast?_eq_some_getLast some
      have later := newer _ last
      rcases before_last ih member last with rfl | before
      · exact later
      · exact Double.lt_trans before later

theorem ToldApart.weaken (apart : ToldApart sets) (part : before <+: sets) : ToldApart before where
  distinct := apart.distinct.sublist (part.sublist.map _)
  positive s member := apart.positive s (part.subset member)

theorem ToldApart.eq_of_sequence (apart : ToldApart sets) (memberA : a ∈ sets) (memberB : b ∈ sets)
    (same : a.set.sequence = b.set.sequence) : a = b :=
  List.inj_on_of_nodup_map apart.distinct memberA memberB same

theorem ToldApart.ne_later (apart : ToldApart (sets ++ later)) (known : s ∈ sets) (new : t ∈ later) :
    s.set.sequence ≠ t.set.sequence := by
  have distinct := apart.distinct
  rw [List.map_append, List.nodup_append] at distinct
  exact distinct.2.2 _ (List.mem_map_of_mem known) _ (List.mem_map_of_mem new)

/-- The set that a status names, if it names one of those accepted. -/
theorem NetworkPoll.Reports.last_eq {p : NetworkPoll} (reports : p.Reports earlier) (apart : ToldApart sets)
    (part : acceptedSets earlier <+: sets) (member : s ∈ sets) (named : p.status.lastHandled = s.set.sequence) :
    (acceptedSets earlier).getLast? = some s := by
  have last := reports.lastHandled
  rw [named] at last
  cases found : (acceptedSets earlier).getLast? with
  | none =>
    rw [found] at last
    exact absurd last (apart.positive s member)
  | some c =>
    rw [found] at last
    have inside := part.subset (List.mem_of_getLast? found)
    rw [apart.eq_of_sequence member inside last]

/-- A round trip that was reported is of an accepted set that a due status has named. -/
theorem exists_of_reported (reports : AllReport polls)
    (member : q ∈ polls) (reported : q.status.network.roundTrip = some r) :
    ∃ s ∈ acceptedSets polls, q.Echoes s.set.sequence ∧ r = s.roundTrip q.status.timeSent := by
  obtain ⟨earlier, later, rfl⟩ := List.append_of_mem member
  have here := reports earlier q later rfl
  obtain ⟨s, last, due, -, same⟩ := (here.roundTrip r).mp reported
  refine ⟨s, (prefix_acceptedSets ..).subset (List.mem_of_getLast? last), ⟨due, ?_⟩, same⟩
  rw [here.lastHandled, last]
  rfl

theorem pairwise_roundTrips (reports : AllReport polls) :
    (polls.filterMap fun p => p.status.network.roundTrip).Pairwise fun r q => r.aiSent < q.aiSent := by
  induction polls using List.reverseRecOn with
  | nil => exact .nil
  | append_singleton polls p ih =>
    have before : AllReport polls := by
      rintro earlier q later rfl
      exact reports earlier q (later ++ [p]) (by rw [List.append_assoc, List.cons_append])
    rw [List.filterMap_append, List.pairwise_append]
    refine ⟨ih before, ?_, ?_⟩
    · cases found : p.status.network.roundTrip <;> simp [found]
    · intro r inside q last
      obtain ⟨o, member, reported⟩ := List.mem_filterMap.mp inside
      obtain ⟨_, single, found⟩ := List.mem_filterMap.mp last
      cases List.mem_singleton.mp single
      obtain ⟨s, accepted, echoed, rfl⟩ := exists_of_reported before member reported
      obtain ⟨c, newest, -, fresh, rfl⟩ := ((reports polls p [] rfl).roundTrip q).mp found
      rcases before_last (pairwise_acceptedSets polls) accepted newest with rfl | order
      · exact absurd echoed (fresh o member)
      · exact order

theorem reportsRoundTrips (apart : ToldApart (acceptedSets polls))
    (reports : AllReport polls) : ReportsRoundTrips polls where
  first := by
    rintro s member earlier p later rfl echoes fresh
    have here := reports earlier p later rfl
    have last := here.last_eq apart (prefix_acceptedSets ..) member echoes.lastHandled
    exact (here.roundTrip _).mpr ⟨s, last, echoes.isDue, fresh, rfl⟩
  later := by
    rintro s member earlier p later rfl named ⟨q, before, echoed⟩
    have here := reports earlier p later rfl
    cases found : p.status.network.roundTrip with
    | none => rfl
    | some r =>
      obtain ⟨c, last, -, fresh, -⟩ := (here.roundTrip r).mp found
      cases last.symm.trans (here.last_eq apart (prefix_acceptedSets ..) member named)
      exact absurd echoed (fresh q before)
  increasing := pairwise_roundTrips reports

end Onboard
