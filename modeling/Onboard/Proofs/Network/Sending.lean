import Onboard.Proofs.Network.Limiter
import Onboard.Proofs.Network.Polls

/-! What a send that fails costs. A poll takes a status for sent, and the set that it echoes for answered, before it is
known whether the status gets out. So what the status had to tell waits for a heartbeat, and its round trip is never
reported; nothing is lost only where every cycle sends and the failed status had nothing new to tell. -/

namespace Onboard

/-- The status was due and did not get out. -/
def NetworkPoll.Failed (p : NetworkPoll) (send : RobotStatus → Except DatagramError Unit) : Prop :=
  p.isDue = true ∧ ∃ cause, send p.status = .error cause

/-- The last status that got out, where `before` did before this poll. -/
def NetworkPoll.lastOut (p : NetworkPoll) (send : RobotStatus → Except DatagramError Unit)
    (before : Option RobotStatus) : Option RobotStatus :=
  if p.isDue then
    match send p.status with
    | .ok () => some p.status
    | .error _ => before
  else before

/-- A property of every poll in a run: of the last status that got out before it, the service it finds, and what it is
asked. -/
def EachPoll (P : Option RobotStatus → NetworkService → RobotStatus → Float →
    (RobotStatus → Except DatagramError Unit) → Prop) :
    Option RobotStatus → NetworkService → List NetworkEvent → Prop
  | _, _, [] => True
  | last, s, .delivery a :: rest => EachPoll P last (s.deliver a.source a.set a.receivedAt a.receivedTime) rest
  | last, s, .poll status time send :: rest =>
    let p := s.poll status time send
    P last s status time send ∧ EachPoll P (p.lastOut send last) p.service rest

/-- The limiter compares with the last status that got out. If the status of this poll does not, limiter and round
trips are as they were before it was tried; a change that has not got out is due. -/
structure LosesNothing (last : Option RobotStatus) (s : NetworkService) (status : RobotStatus) (time : Float)
    (send : RobotStatus → Except DatagramError Unit) : Prop where
  lastSent : (s.poll status time send).service.limiter.lastSent =
    ((s.poll status time send).lastOut send last).map StatusDigest.of
  limiter : (s.poll status time send).Failed send → (s.poll status time send).service.limiter = s.limiter
  trips : (s.poll status time send).Failed send → (s.poll status time send).service.trips = s.take.trips
  changes : (∀ t, last = some t → ¬ status.Alike t) → (s.poll status time send).isDue = true

/-- Every cycle sends, and the status tells nothing new: it is like the last one that got out, and echoes no set that
waits for it. -/
structure HasNothingToLose (settings : LoopSettings) (last : Option RobotStatus) (s : NetworkService)
    (status : RobotStatus) : Prop where
  floor : (heartbeatFloor settings.loopHz settings.statusHz).toNat = 1
  alike : ∃ t, last = some t ∧ status.Alike t
  unechoed : ∀ r ∈ s.take.trips.records, r.sequence ≠ status.lastHandled

theorem RoundTrips.resolve_kept_iff (t : RoundTrips) (number : UInt64) (time : Float) :
    (t.resolve number time).2 = t ↔ ∀ r ∈ t.records, r.sequence ≠ number := by
  constructor
  · intro kept r member same
    have waiting : t.records.dropWhile (fun r => r.sequence ≠ number) ≠ [] := by
      intro none
      have passed := List.dropWhile_eq_nil_iff.mp none r member
      exact of_decide_eq_true passed same
    unfold resolve at kept
    split at kept
    · contradiction
    · next q later found =>
      have shorter := (List.dropWhile_suffix (l := t.records) fun r => decide (r.sequence ≠ number)).length_le
      rw [found, List.length_cons, ← kept] at shorter
      exact absurd shorter (Nat.not_succ_le_self _)
  · intro absent
    rw [resolve_absent absent]

/-- What a poll adds to a status is nothing that the limiter looks at. -/
theorem alike_withLoss (status : RobotStatus) (latest : Option InboundSet) :
    (NetworkService.withLoss status latest).Alike status := by
  cases latest <;> exact ⟨fun _ => Iff.rfl, rfl, rfl⟩

theorem alike_poll (s : NetworkService) (status : RobotStatus) (time : Float)
    (send : RobotStatus → Except DatagramError Unit) : (s.poll status time send).status.Alike status := by
  have alike := alike_withLoss status s.take.latest
  rw [(s.polled status time send).status]
  exact ⟨alike.errorCodes, alike.motorFaults, alike.breakbeam⟩

/-- The limiter decides on the status that the loop has made. -/
theorem poll_limited (s : NetworkService) (status : RobotStatus) (time : Float)
    (send : RobotStatus → Except DatagramError Unit) :
    s.limiter.shouldSend status = ((s.poll status time send).isDue, (s.poll status time send).service.limiter) := by
  rw [← StatusLimiter.shouldSend_congr (alike_withLoss status s.take.latest), ← s.limiter_take]
  unfold NetworkService.poll
  dsimp only
  generalize s.take.limiter.shouldSend (NetworkService.withLoss status s.take.latest) = decision
  rcases decision with ⟨_ | _, limiter⟩ <;> rfl

/-- What a decision on a status leaves of a limiter. -/
inductive Limits (l : StatusLimiter) (status : RobotStatus) (isDue : Bool) (next : StatusLimiter) : Prop where
  | due : isDue = true → l.lastSent ≠ some (.of status) ∨ l.floor ≤ l.nextCount →
      next = ⟨l.floor, 0, some (.of status)⟩ → Limits l status isDue next
  | quiet : isDue = false → l.lastSent = some (.of status) → ¬ l.floor ≤ l.nextCount →
      next = { l with cyclesSinceSend := l.nextCount } → Limits l status isDue next

theorem limits (s : NetworkService) (status : RobotStatus) (time : Float)
    (send : RobotStatus → Except DatagramError Unit) :
    Limits s.limiter status (s.poll status time send).isDue (s.poll status time send).service.limiter := by
  have limited := poll_limited s status time send
  rcases s.limiter.shouldSend_eq status with ⟨due, same⟩ | ⟨⟨alike, early⟩, same⟩
  · obtain ⟨isDue, next⟩ := Prod.mk.inj (limited.symm.trans same)
    exact .due isDue due next
  · obtain ⟨isDue, next⟩ := Prod.mk.inj (limited.symm.trans same)
    exact .quiet isDue alike early next

/-- A service whose limiter compares with the last status that got out. -/
structure Compares (settings : LoopSettings) (last : Option RobotStatus) (s : NetworkService) : Prop where
  floor : s.limiter.floor = heartbeatFloor settings.loopHz settings.statusHz
  lastSent : s.limiter.lastSent = last.map StatusDigest.of
  /-- Where every cycle sends there is nothing to count. -/
  rests : s.limiter.floor.toNat = 1 → s.limiter.cyclesSinceSend = 0

theorem compares_onSources {settings : LoopSettings} (opened : NetworkService.onSources count settings = .ok first) :
    Compares settings none first := by
  unfold NetworkService.onSources at opened
  cases made : RoundTrips.forRates settings.primitiveHz settings.statusHz with
  | error e =>
    rw [made] at opened
    cases opened
  | ok trips =>
    rw [made] at opened
    cases opened
    exact ⟨rfl, rfl, fun _ => rfl⟩

namespace Compares

variable {settings : LoopSettings} {last : Option RobotStatus} {s : NetworkService} {status : RobotStatus}
  {time : Float} {send : RobotStatus → Except DatagramError Unit}

/-- The last status to have got out is like this one, if the limiter takes it for that. -/
theorem alike (compares : Compares settings last s) (same : s.limiter.lastSent = some (.of status)) :
    ∃ t, last = some t ∧ status.Alike t := by
  obtain ⟨t, out, digest⟩ := Option.map_eq_some_iff.mp (compares.lastSent.symm.trans same)
  exact ⟨t, out, (digest_eq_iff status t).mp digest.symm⟩

theorem hasNothingToLose (compares : Compares settings last s) (loses : LosesNothing last s status time send)
    (failed : (s.poll status time send).Failed send) : HasNothingToLose settings last s status := by
  have kept := loses.limiter failed
  have waiting := loses.trips failed
  rw [(s.polled status time send).trips, RoundTrips.settled, if_pos failed.1, RoundTrips.resolve_kept_iff] at waiting
  cases limits s status time send with
  | quiet notDue => cases notDue.symm.trans failed.1
  | due _ due next =>
    -- A limiter that is kept held this status already, with a count of zero: only the floor has made it due.
    rw [kept] at next
    have lastSent : s.limiter.lastSent = some (.of status) := congrArg StatusLimiter.lastSent next
    have rests : s.limiter.cyclesSinceSend = 0 := congrArg StatusLimiter.cyclesSinceSend next
    have reached := UInt32.le_iff_toNat_le.mp (due.resolve_left (not_not.mpr lastSent))
    rw [StatusLimiter.toNat_nextCount, rests, compares.floor] at reached
    have positive := one_le_heartbeatFloor settings.loopHz settings.statusHz
    refine ⟨?_, compares.alike lastSent, waiting⟩
    exact Nat.le_antisymm (reached.trans (Nat.min_le_left _ _)) positive

/-- A poll whose status is not due. -/
theorem poll_quiet (compares : Compares settings last s) (notDue : (s.poll status time send).isDue = false) :
    LosesNothing last s status time send ∧
      Compares settings ((s.poll status time send).lastOut send last) (s.poll status time send).service := by
  have noFailure : ¬ (s.poll status time send).Failed send := fun failed => nomatch notDue.symm.trans failed.1
  have out : (s.poll status time send).lastOut send last = last := by simp [NetworkPoll.lastOut, notDue]
  cases limits s status time send with
  | due isDue => cases notDue.symm.trans isDue
  | quiet _ same early next =>
    have lastSent : (s.poll status time send).service.limiter.lastSent = last.map StatusDigest.of := by
      rw [next]
      exact compares.lastSent
    rw [out]
    constructor
    · refine ⟨by rw [out, lastSent], fun failed => absurd failed noFailure, fun failed => absurd failed noFailure, ?_⟩
      intro changed
      obtain ⟨t, found, alike⟩ := compares.alike same
      exact absurd alike (changed t found)
    · refine ⟨by rw [next]; exact compares.floor, lastSent, fun one => ?_⟩
      rw [next] at one
      refine absurd ?_ early
      rw [UInt32.le_iff_toNat_le, show s.limiter.floor.toNat = 1 from one, StatusLimiter.toNat_nextCount]
      omega

/-- A poll whose status is due, and is like the last one to have got out after it. -/
theorem poll_due (compares : Compares settings last s) (isDue : (s.poll status time send).isDue = true)
    (out : ((s.poll status time send).lastOut send last).map StatusDigest.of = some (.of status)) :
    (s.poll status time send).service.limiter = ⟨s.limiter.floor, 0, some (.of status)⟩ ∧
      Compares settings ((s.poll status time send).lastOut send last) (s.poll status time send).service := by
  cases limits s status time send with
  | quiet notDue => cases isDue.symm.trans notDue
  | due _ _ next =>
    refine ⟨next, ⟨?_, ?_, fun _ => ?_⟩⟩
    · rw [next]
      exact compares.floor
    · rw [next, out]
    · rw [next]

/-- If the status of a poll fails only with nothing to lose, nothing is lost, and the limiter still compares with the
last one that got out. -/
theorem poll (compares : Compares settings last s)
    (spared : (s.poll status time send).Failed send → HasNothingToLose settings last s status) :
    LosesNothing last s status time send ∧
      Compares settings ((s.poll status time send).lastOut send last) (s.poll status time send).service := by
  by_cases isDue : (s.poll status time send).isDue = true
  · cases sent : send (s.poll status time send).status with
    | ok =>
      have noFailure : ¬ (s.poll status time send).Failed send := fun ⟨_, _, error⟩ => nomatch sent.symm.trans error
      have out : ((s.poll status time send).lastOut send last).map StatusDigest.of = some (.of status) := by
        rw [← (digest_eq_iff _ _).mpr (alike_poll s status time send)]
        simp [NetworkPoll.lastOut, isDue, sent]
      obtain ⟨-, next⟩ := compares.poll_due isDue out
      refine ⟨⟨next.lastSent, ?_, ?_, fun _ => isDue⟩, next⟩
      · exact fun failed => absurd failed noFailure
      · exact fun failed => absurd failed noFailure
    | error cause =>
      obtain ⟨one, ⟨t, found, alike⟩, unechoed⟩ := spared ⟨isDue, cause, sent⟩
      have digest : last.map StatusDigest.of = some (.of status) := by
        rw [found, Option.map_some, (digest_eq_iff status t).mpr alike]
      have out : ((s.poll status time send).lastOut send last).map StatusDigest.of = some (.of status) := by
        simpa [NetworkPoll.lastOut, isDue, sent] using digest
      obtain ⟨limiter, next⟩ := compares.poll_due isDue out
      refine ⟨⟨next.lastSent, fun _ => ?_, fun _ => ?_, fun _ => isDue⟩, next⟩
      · rw [limiter, ← digest, ← compares.lastSent, ← compares.rests (compares.floor ▸ one)]
      · rw [(s.polled status time send).trips, RoundTrips.settled, if_pos isDue, RoundTrips.resolve_kept_iff]
        exact unechoed
  · exact compares.poll_quiet (Bool.eq_false_iff.mpr isDue)

theorem losesNothing_iff (compares : Compares settings last s) :
    LosesNothing last s status time send ↔
      ((s.poll status time send).Failed send → HasNothingToLose settings last s status) := by
  constructor
  · exact compares.hasNothingToLose
  · exact fun spared => (compares.poll spared).1

theorem eachPoll_iff (compares : Compares settings last s) (events : List NetworkEvent) :
    EachPoll LosesNothing last s events ↔
      EachPoll (fun last s status time send =>
        (s.poll status time send).Failed send → HasNothingToLose settings last s status) last s events := by
  induction events generalizing last s with
  | nil => exact Iff.rfl
  | cons event rest ih =>
    cases event with
    | delivery a => exact ih ⟨compares.floor, compares.lastSent, compares.rests⟩
    | poll status time send =>
      rw [EachPoll, EachPoll, compares.losesNothing_iff]
      exact and_congr_right fun spared => ih (compares.poll spared).2

end Compares

/-- A run loses nothing to failed sends, at any of its polls, if and only if every status that fails has nothing to
lose. -/
theorem failed_sends_lose_nothing_iff {settings : LoopSettings}
    (opened : NetworkService.onSources count settings = .ok first) (events : List NetworkEvent) :
    EachPoll LosesNothing none first events ↔
      EachPoll (fun last s status time send =>
        (s.poll status time send).Failed send → HasNothingToLose settings last s status) none first events := by
  have compares := compares_onSources opened
  exact compares.eachPoll_iff events

def unsent (_ : RobotStatus) : Except DatagramError Unit :=
  .error (.notSent .networkUnreachable)

def tripped (lastHandled : UInt64) : RobotStatus :=
  { RobotStatus.initial with lastHandled := lastHandled, power := { PowerStatus.initial with breakbeamTripped := true } }

/-- Where every cycle sends, a status that tells nothing new may fail. -/
theorem repeated_status_fails :
    ∃ first, NetworkService.onSources 0 .secondly = .ok first ∧
      ((first.poll (tripped 0) 1.0 fun _ => .ok ()).service.poll (tripped 0) 2.0 unsent).Failed unsent ∧
      EachPoll LosesNothing none first [.poll (tripped 0) 1.0 fun _ => .ok (), .poll (tripped 0) 2.0 unsent] := by
  have opened : NetworkService.onSources 0 .secondly = .ok _ := rfl
  refine ⟨_, opened, ⟨by decide +kernel, _, rfl⟩, (failed_sends_lose_nothing_iff opened _).mpr ?_⟩
  change (_ → _) ∧ (_ → _) ∧ True
  refine ⟨fun failed => ?_, fun _ => ?_, trivial⟩
  · obtain ⟨-, cause, error⟩ := failed
    cases error
  · have floor : (heartbeatFloor LoopSettings.secondly.loopHz LoopSettings.secondly.statusHz).toNat = 1 := by
      decide +kernel
    exact ⟨floor, ⟨_, rfl, fun _ => Iff.rfl, rfl, rfl⟩, by decide +kernel⟩

/-- Two cycles to a heartbeat. -/
def LoopSettings.halting : LoopSettings :=
  { LoopSettings.secondly with loopHz := 2.0 }

/-- The breakbeam trips, and the status that says so, and echoes the set with number 5, does not get out. The next one
is not due, and the set waits for no status any more. -/
theorem lost_with_failed_send :
    ∃ first, NetworkService.onSources 1 .halting = .ok first ∧
      let held := first.deliver 0 ⟨5, 1.0, .empty⟩ 0 1.0
      let sent := held.poll .initial 2.0 fun _ => .ok ()
      let failed := sent.service.poll (tripped 5) 3.0 unsent
      let next := failed.service.poll (tripped 5) 4.0 fun _ => .ok ()
      sent.isDue = true ∧ sent.service.trips.records = [⟨5, 1.0, 1.0⟩] ∧
        failed.Failed unsent ∧ failed.service.trips.records = [] ∧
        failed.service.limiter.lastSent = some (.of (tripped 5)) ∧ next.isDue = false := by
  refine ⟨_, rfl, by decide +kernel, by decide +kernel, ⟨by decide +kernel, _, rfl⟩, ?_, ?_, ?_⟩
  all_goals decide +kernel

end Onboard
