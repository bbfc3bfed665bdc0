import Mathlib.Data.List.Induction
import Onboard.Network.StatusLimiter

/-! When statuses are sent. The limiter remembers a digest of one status and a count that stops at its largest value;
over a whole run its decisions are those of a rule on the statuses themselves, each compared with the last one sent. -/

namespace Onboard

/-- The same error codes in any order and number, the same motor faults as they are listed, the same breakbeam. -/
structure RobotStatus.Alike (s t : RobotStatus) : Prop where
  errorCodes : ∀ e, e ∈ s.errorCodes ↔ e ∈ t.errorCodes
  motorFaults : s.motor.faults = t.motor.faults
  breakbeam : s.power.breakbeamTripped = t.power.breakbeamTripped

/-- Before a cycle the last send was in another one. -/
structure LastSent (decisions : List Bool) (i j : Nat) : Prop where
  before : j < i
  sent : decisions[j]? = some true
  quiet : ∀ k, j < k → k < i → decisions[k]? = some false

/-- What there is to a status being due in a cycle: it is the first one, or not like the last one sent, or that one
was sent long enough ago. -/
def IsDue (floor : Nat) (statuses : List RobotStatus) (decisions : List Bool) (i : Nat) (s : RobotStatus) : Prop :=
  i = 0 ∨ ∃ j t, LastSent decisions i j ∧ statuses[j]? = some t ∧ (¬ s.Alike t ∨ floor ≤ i - j)

theorem digest_eq_iff (s t : RobotStatus) : StatusDigest.of s = .of t ↔ s.Alike t := by
  have codes : (ErrorCode.all.filter fun e => s.errorCodes.contains e) =
      (ErrorCode.all.filter fun e => t.errorCodes.contains e) ↔ ∀ e, e ∈ s.errorCodes ↔ e ∈ t.errorCodes := by
    constructor
    · intro same e
      have listed := congrArg (e ∈ ·) same
      simpa [List.mem_filter, e.mem_all] using listed
    · intro same
      refine List.filter_congr fun e _ => ?_
      rw [Bool.eq_iff_iff, List.contains_iff_mem, List.contains_iff_mem]
      exact same e
  rw [StatusDigest.of, StatusDigest.of, StatusDigest.mk.injEq, codes]
  constructor
  · rintro ⟨motorFaults, errorCodes, breakbeam⟩
    exact ⟨errorCodes, motorFaults, breakbeam⟩
  · rintro ⟨errorCodes, motorFaults, breakbeam⟩
    exact ⟨motorFaults, errorCodes, breakbeam⟩

theorem LastSent.unique (one : LastSent decisions i j) (other : LastSent decisions i k) : j = k := by
  rcases Nat.lt_trichotomy j k with less | same | more
  · exact nomatch (one.quiet k less other.before).symm.trans other.sent
  · exact same
  · exact nomatch (other.quiet j more one.before).symm.trans one.sent

/-- Later decisions do not matter. -/
theorem lastSent_append_iff {decisions later : List Bool} (bound : i ≤ decisions.length) :
    LastSent (decisions ++ later) i j ↔ LastSent decisions i j := by
  have same : ∀ k, k < i → (decisions ++ later)[k]? = decisions[k]? :=
    fun k less => List.getElem?_append_left (Nat.lt_of_lt_of_le less bound)
  constructor
  · rintro ⟨before, sent, quiet⟩
    exact ⟨before, same j before ▸ sent, fun k after less => same k less ▸ quiet k after less⟩
  · rintro ⟨before, sent, quiet⟩
    exact ⟨before, (same j before).trans sent, fun k after less => (same k less).trans (quiet k after less)⟩

theorem LastSent.here (decisions : List Bool) :
    LastSent (decisions ++ [true]) (decisions.length + 1) decisions.length where
  before := Nat.lt_succ_self _
  sent := List.getElem?_concat_length
  quiet k after less := by omega

theorem LastSent.later (last : LastSent decisions decisions.length j) :
    LastSent (decisions ++ [false]) (decisions.length + 1) j where
  before := Nat.lt_succ_of_lt last.before
  sent := (List.getElem?_append_left last.before).trans last.sent
  quiet k after less := by
    rcases Nat.lt_or_eq_of_le (Nat.le_of_lt_succ less) with earlier | rfl
    · exact (List.getElem?_append_left earlier).trans (last.quiet k after earlier)
    · exact List.getElem?_concat_length

theorem one_le_heartbeatFloor (loopHz statusHz : Float) : 1 ≤ (heartbeatFloor loopHz statusHz).toNat := by
  have atLeast (n : UInt32) : 1 ≤ (max 1 n).toNat := by
    change 1 ≤ (if 1 ≤ n then n else 1).toNat
    split
    · next large => exact UInt32.le_iff_toNat_le.mp large
    · exact Nat.le_refl 1
  unfold heartbeatFloor
  split
  · exact atLeast _
  · exact Nat.le_refl 1

namespace StatusLimiter

theorem toNat_nextCount (l : StatusLimiter) : l.nextCount.toNat = min (l.cyclesSinceSend.toNat + 1) 0xFFFFFFFF := by
  have bound := l.cyclesSinceSend.toNat_lt
  unfold nextCount
  split
  · next full =>
    rw [full]
    rfl
  · next room =>
    have below : l.cyclesSinceSend.toNat ≠ 0xFFFFFFFF := fun full => room (UInt32.toNat_inj.mp full)
    rw [UInt32.toNat_add]
    change (l.cyclesSinceSend.toNat + 1) % 2 ^ 32 = _
    omega

theorem shouldSend_eq (l : StatusLimiter) (s : RobotStatus) :
    (l.lastSent ≠ some (.of s) ∨ l.floor ≤ l.nextCount) ∧ l.shouldSend s = (true, ⟨l.floor, 0, some (.of s)⟩) ∨
      (l.lastSent = some (.of s) ∧ ¬ l.floor ≤ l.nextCount) ∧
        l.shouldSend s = (false, { l with cyclesSinceSend := l.nextCount }) := by
  unfold shouldSend
  dsimp only
  split
  · next due => exact .inl ⟨due, rfl⟩
  · next notDue =>
    rw [not_or, not_not] at notDue
    exact .inr ⟨notDue, rfl⟩

/-- The limiter after some statuses. -/
def after (l : StatusLimiter) (statuses : List RobotStatus) : StatusLimiter :=
  statuses.foldl (fun l s => (l.shouldSend s).2) l

theorem decisions_append (l : StatusLimiter) (statuses later : List RobotStatus) :
    l.decisions (statuses ++ later) = l.decisions statuses ++ (l.after statuses).decisions later := by
  induction statuses generalizing l with
  | nil => rfl
  | cons s rest ih => exact congrArg ((l.shouldSend s).1 :: ·) (ih _)

theorem after_append (l : StatusLimiter) (statuses : List RobotStatus) (s : RobotStatus) :
    l.after (statuses ++ [s]) = ((l.after statuses).shouldSend s).2 := by
  rw [after, List.foldl_append, List.foldl_cons, List.foldl_nil, after]

/-- What the limiter holds of the statuses decided so far. -/
structure Remembers (floor : UInt32) (statuses : List RobotStatus) (decisions : List Bool) (l : StatusLimiter) :
    Prop where
  floor : l.floor = floor
  length : decisions.length = statuses.length
  first : statuses = [] → l.lastSent = none
  last : statuses ≠ [] → ∃ j t, LastSent decisions statuses.length j ∧ statuses[j]? = some t ∧
    l.lastSent = some (.of t) ∧ l.cyclesSinceSend.toNat = min (statuses.length - (j + 1)) 0xFFFFFFFF

variable {floor : UInt32} {statuses : List RobotStatus} {decisions : List Bool} {l : StatusLimiter}

theorem Remembers.opened (loopHz statusHz : Float) :
    Remembers (heartbeatFloor loopHz statusHz) [] [] (new loopHz statusHz) where
  floor := rfl
  length := rfl
  first := fun _ => rfl
  last := fun none => absurd rfl none

/-- The largest value of the count is large enough for every floor. -/
theorem Remembers.floor_le_iff (remembers : Remembers floor statuses decisions l)
    (last : LastSent decisions statuses.length j)
    (count : l.cyclesSinceSend.toNat = min (statuses.length - (j + 1)) 0xFFFFFFFF) :
    l.floor ≤ l.nextCount ↔ floor.toNat ≤ statuses.length - j := by
  have before := last.before
  have bound := floor.toNat_lt
  rw [UInt32.le_iff_toNat_le, toNat_nextCount, remembers.floor, count]
  omega

theorem Remembers.decides (remembers : Remembers floor statuses decisions l) (s : RobotStatus) :
    (l.shouldSend s).1 = true ↔ IsDue floor.toNat statuses decisions statuses.length s := by
  have due : (l.shouldSend s).1 = true ↔ l.lastSent ≠ some (.of s) ∨ l.floor ≤ l.nextCount := by
    rcases l.shouldSend_eq s with ⟨due, same⟩ | ⟨notDue, same⟩
    · exact iff_of_true (by rw [same]) due
    · exact iff_of_false (by rw [same]; exact Bool.noConfusion) (by rw [not_or, not_not]; exact notDue)
  rw [due]
  by_cases first : statuses = []
  · rw [remembers.first first, first]
    exact iff_of_true (.inl nofun) (.inl rfl)
  · obtain ⟨j, t, last, sent, digest, count⟩ := remembers.last first
    rw [remembers.floor_le_iff last count, digest, ne_eq, Option.some.injEq, eq_comm, digest_eq_iff]
    constructor
    · intro due
      exact .inr ⟨j, t, last, sent, due⟩
    · rintro (none | ⟨k, u, also, listed, due⟩)
      · exact absurd (List.length_eq_zero_iff.mp none) first
      · cases last.unique also
        cases sent.symm.trans listed
        exact due

theorem Remembers.next (remembers : Remembers floor statuses decisions l) (s : RobotStatus) :
    Remembers floor (statuses ++ [s]) (decisions ++ [(l.shouldSend s).1]) (l.shouldSend s).2 where
  floor := by
    rcases l.shouldSend_eq s with ⟨-, same⟩ | ⟨-, same⟩ <;> rw [same] <;> exact remembers.floor
  length := by
    rw [List.length_append, List.length_append, remembers.length]
    rfl
  first := by simp
  last := by
    intro _
    rw [List.length_append, List.length_singleton]
    rcases l.shouldSend_eq s with ⟨-, same⟩ | ⟨⟨digest, notDue⟩, same⟩
    · have last := LastSent.here decisions
      rw [remembers.length] at last
      rw [same]
      exact ⟨statuses.length, s, last, List.getElem?_concat_length, rfl, by rw [Nat.sub_self]; rfl⟩
    · have some : statuses ≠ [] := by
        rintro rfl
        exact nomatch (remembers.first rfl).symm.trans digest
      obtain ⟨j, t, last, sent, digest, count⟩ := remembers.last some
      have before := last.before
      have counted : l.nextCount.toNat = min (statuses.length + 1 - (j + 1)) 0xFFFFFFFF := by
        rw [toNat_nextCount, count]
        omega
      rw [← remembers.length] at last
      have last := last.later
      rw [remembers.length] at last
      rw [same]
      exact ⟨j, t, last, (List.getElem?_append_left before).trans sent, digest, counted⟩

theorem Remembers.run (loopHz statusHz : Float) (statuses : List RobotStatus) :
    Remembers (heartbeatFloor loopHz statusHz) statuses ((new loopHz statusHz).decisions statuses)
      ((new loopHz statusHz).after statuses) := by
  induction statuses using List.reverseRecOn with
  | nil => exact .opened loopHz statusHz
  | append_singleton statuses s ih =>
    rw [decisions_append, after_append]
    exact ih.next s

theorem shouldSend_congr {s t : RobotStatus} (alike : s.Alike t) (l : StatusLimiter) :
    l.shouldSend s = l.shouldSend t := by
  unfold shouldSend
  rw [(digest_eq_iff s t).mpr alike]

theorem decisions_congr {statuses others : List RobotStatus} (alike : List.Forall₂ RobotStatus.Alike statuses others)
    (l : StatusLimiter) : l.decisions statuses = l.decisions others := by
  induction alike generalizing l with
  | nil => rfl
  | cons first _ ih => rw [decisions, decisions, shouldSend_congr first, ih]

end StatusLimiter

/-- What a run of cycles sends, on the statuses alone. -/
structure SendsWhenDue (floor : Nat) (statuses : List RobotStatus) (decisions : List Bool) : Prop where
  length : decisions.length = statuses.length
  decides : ∀ i s, statuses[i]? = some s → (decisions[i]? = some true ↔ IsDue floor statuses decisions i s)
  last : ∀ i, 0 < i → i ≤ statuses.length → ∃ j, LastSent decisions i j

/-- What comes later does not matter. -/
theorem isDue_append_iff {statuses later : List RobotStatus} {decisions more : List Bool}
    (bound : i ≤ statuses.length) (length : decisions.length = statuses.length) (s : RobotStatus) :
    IsDue floor (statuses ++ later) (decisions ++ more) i s ↔ IsDue floor statuses decisions i s := by
  refine or_congr_right (exists_congr fun j => exists_congr fun t => ?_)
  rw [lastSent_append_iff (length ▸ bound)]
  refine and_congr_right fun last => ?_
  rw [List.getElem?_append_left (Nat.lt_of_lt_of_le last.before bound)]

theorem sendsWhenDue (loopHz statusHz : Float) (statuses : List RobotStatus) :
    SendsWhenDue (heartbeatFloor loopHz statusHz).toNat statuses
      ((StatusLimiter.new loopHz statusHz).decisions statuses) := by
  have remembers := StatusLimiter.Remembers.run loopHz statusHz
  refine ⟨(remembers statuses).length, ?_, ?_⟩
  · intro i s found
    obtain ⟨bound, here⟩ := List.getElem?_eq_some_iff.mp found
    have split : statuses = statuses.take i ++ s :: statuses.drop (i + 1) := by
      rw [← here, List.getElem_cons_drop, List.take_append_drop]
    have length := List.length_take_of_le (Nat.le_of_lt bound)
    have before := remembers (statuses.take i)
    have decided := before.decides s
    have place : ((StatusLimiter.new loopHz statusHz).decisions (statuses.take i)).length = i :=
      before.length.trans length
    rw [length] at decided
    rw [split, StatusLimiter.decisions_append, isDue_append_iff (Nat.le_of_eq length.symm) before.length, ← decided,
      List.getElem?_append_right (Nat.le_of_eq place), place, Nat.sub_self, StatusLimiter.decisions,
      List.getElem?_cons_zero, Option.some.injEq]
  · intro i positive bound
    have length := List.length_take_of_le bound
    have before := remembers (statuses.take i)
    have some : statuses.take i ≠ [] := List.ne_nil_of_length_pos (length.symm ▸ positive)
    obtain ⟨j, -, last, -⟩ := before.last some
    rw [length] at last
    refine ⟨j, ?_⟩
    rw [← List.take_append_drop i statuses, StatusLimiter.decisions_append]
    exact (lastSent_append_iff (Nat.le_of_eq (before.length.trans length).symm)).mpr last

theorem LastSent.earlier (last : LastSent decisions i j) (after : j < k) (bound : k ≤ i) : LastSent decisions k j where
  before := after
  sent := last.sent
  quiet m later less := last.quiet m later (Nat.lt_of_lt_of_le less bound)

/-- No more than the floor of cycles pass without a send. -/
theorem SendsWhenDue.spacing (sends : SendsWhenDue floor statuses decisions) (positive : 1 ≤ floor)
    (bound : i ≤ statuses.length) (last : LastSent decisions i j) : i - j ≤ floor := by
  refine Nat.le_of_not_lt fun late => ?_
  have here : j + floor < i := by omega
  have inside := Nat.lt_of_lt_of_le here bound
  have earlier : LastSent decisions (j + floor) j := last.earlier (by omega) (Nat.le_of_lt here)
  obtain ⟨t, sent⟩ : ∃ t, statuses[j]? = some t := ⟨_, List.getElem?_eq_getElem (by omega)⟩
  have due := (sends.decides _ _ (List.getElem?_eq_getElem inside)).mpr (.inr ⟨j, t, earlier, sent, .inr (by omega)⟩)
  exact nomatch (last.quiet _ (by omega) here).symm.trans due

/-- Over a whole run, at any rates: a status is sent just when it is due, that is the first one, one that is not like
the last one sent, or one that comes no fewer than the floor of cycles after it. So sends are never further apart than
the floor, which is one at least, a status like the last one sent is never sent before, and statuses that are alike
are decided alike. -/
theorem statuses_sent_when_due (loopHz statusHz : Float) (statuses : List RobotStatus) :
    1 ≤ (heartbeatFloor loopHz statusHz).toNat ∧
      SendsWhenDue (heartbeatFloor loopHz statusHz).toNat statuses
        ((StatusLimiter.new loopHz statusHz).decisions statuses) ∧
      (∀ i j, i ≤ statuses.length → LastSent ((StatusLimiter.new loopHz statusHz).decisions statuses) i j →
        i - j ≤ (heartbeatFloor loopHz statusHz).toNat) ∧
      (∀ i j s t, ((StatusLimiter.new loopHz statusHz).decisions statuses)[i]? = some true →
        LastSent ((StatusLimiter.new loopHz statusHz).decisions statuses) i j → statuses[i]? = some s →
        statuses[j]? = some t → s.Alike t → (heartbeatFloor loopHz statusHz).toNat ≤ i - j) ∧
      ∀ others, List.Forall₂ RobotStatus.Alike statuses others →
        (StatusLimiter.new loopHz statusHz).decisions others =
          (StatusLimiter.new loopHz statusHz).decisions statuses := by
  have positive := one_le_heartbeatFloor loopHz statusHz
  have sends := sendsWhenDue loopHz statusHz statuses
  refine ⟨positive, sends, ?_, ?_, ?_⟩
  · intro i j bound last
    exact sends.spacing positive bound last
  · intro i j s t due last found sent alike
    rcases (sends.decides i s found).mp due with rfl | ⟨k, u, also, listed, changed⟩
    · exact absurd last.before (Nat.not_lt_zero j)
    · cases last.unique also
      cases sent.symm.trans listed
      exact changed.resolve_left fun different => different alike
  · intro others alike
    exact (StatusLimiter.decisions_congr alike _).symm

end Onboard
