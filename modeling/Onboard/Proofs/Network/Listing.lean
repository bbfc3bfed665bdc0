import Mathlib.Data.List.Forall2
import Onboard.Proofs.Network.Limiter

/-! The order in which faults are listed. Error codes count as a set, but the faults of motors as they stand: between
two heartbeats, the same faults in another order are taken for a change. So statuses are decided whatever the order of
their faults just where there is no other order to come, or where every cycle sends anyway. -/

namespace Onboard

/-- The same report of a motor, but for the order of its faults. -/
structure MotorFaultReport.Reordered (r q : MotorFaultReport) : Prop where
  motor : r.motor = q.motor
  enabled : r.enabled = q.enabled
  faults : r.faults.Perm q.faults

/-- The same reports of motors, but for their order and the order of the faults in each. -/
def SameFaults (l m : List MotorFaultReport) : Prop :=
  ∃ k, l.Perm k ∧ List.Forall₂ MotorFaultReport.Reordered k m

/-- The same error codes, faults of motors and breakbeam, but for the order in which they are listed. -/
structure RobotStatus.Reordered (s t : RobotStatus) : Prop where
  errorCodes : s.errorCodes.Perm t.errorCodes
  motorFaults : SameFaults s.motor.faults t.motor.faults
  breakbeam : s.power.breakbeamTripped = t.power.breakbeamTripped

/-- Statuses with faults of motors as they are listed somewhere. -/
def ListsFrom (listed : List MotorFaultReport → Prop) (statuses : List RobotStatus) : Prop :=
  ∀ s ∈ statuses, listed s.motor.faults

/-- Two runs at the same rates, whose statuses agree one by one but for the order of their faults, send in the same
cycles. -/
def DecidesAlike (loopHz statusHz : Float) (listed : List MotorFaultReport → Prop) : Prop :=
  ∀ statuses others, ListsFrom listed statuses → ListsFrom listed others →
    List.Forall₂ RobotStatus.Reordered statuses others →
    (StatusLimiter.new loopHz statusHz).decisions statuses = (StatusLimiter.new loopHz statusHz).decisions others

/-- What differs from the last status sent by the order of its faults alone waits for the heartbeat. -/
def WaitsForHeartbeat (loopHz statusHz : Float) (listed : List MotorFaultReport → Prop) : Prop :=
  ∀ statuses, ListsFrom listed statuses → ∀ i j s t,
    LastSent ((StatusLimiter.new loopHz statusHz).decisions statuses) i j →
    ((StatusLimiter.new loopHz statusHz).decisions statuses)[i]? = some true →
    statuses[i]? = some s → statuses[j]? = some t → s.Reordered t →
    (heartbeatFloor loopHz statusHz).toNat ≤ i - j

/-- The same faults are never listed in two orders. -/
def ListsInOneOrder (listed : List MotorFaultReport → Prop) : Prop :=
  ∀ l m, listed l → listed m → SameFaults l m → l = m

theorem MotorFaultReport.Reordered.refl (r : MotorFaultReport) : r.Reordered r :=
  ⟨rfl, rfl, .refl _⟩

theorem SameFaults.refl (l : List MotorFaultReport) : SameFaults l l :=
  ⟨l, .refl l, List.forall₂_same.mpr fun r _ => .refl r⟩

theorem RobotStatus.Reordered.alike {s t : RobotStatus} (reordered : s.Reordered t)
    (faults : s.motor.faults = t.motor.faults) : s.Alike t :=
  ⟨fun _ => reordered.errorCodes.mem_iff, faults, reordered.breakbeam⟩

/-- A status with these faults and nothing else to report. -/
def RobotStatus.withFaults (faults : List MotorFaultReport) : RobotStatus :=
  { RobotStatus.initial with motor := { MotorStatus.initial with faults := faults } }

theorem reordered_withFaults (same : SameFaults l m) :
    (RobotStatus.withFaults l).Reordered (.withFaults m) :=
  ⟨.refl _, same, rfl⟩

theorem listsFrom_pair (first : listed l) (second : listed m) :
    ListsFrom listed [.withFaults l, .withFaults m] := by
  intro s member
  rcases List.mem_pair.mp member with rfl | rfl
  · exact first
  · exact second

namespace StatusLimiter

/-- A floor of one cycle sends every status. -/
theorem decisions_of_floor {l : StatusLimiter} (floor : l.floor.toNat = 1) (statuses : List RobotStatus) :
    l.decisions statuses = List.replicate statuses.length true := by
  induction statuses generalizing l with
  | nil => rfl
  | cons s rest ih =>
    have reached : l.floor ≤ l.nextCount := by
      rw [UInt32.le_iff_toNat_le, floor, toNat_nextCount]
      omega
    rcases l.shouldSend_eq s with ⟨-, same⟩ | ⟨⟨-, notDue⟩, -⟩
    · rw [decisions, same, List.length_cons, List.replicate_succ]
      exact congrArg (true :: ·) (ih floor)
    · exact absurd reached notDue

/-- A second status is sent if it is not like the first one. -/
theorem second_sent_iff (loopHz statusHz : Float) (s t : RobotStatus) :
    ((new loopHz statusHz).decisions [s, t])[1]? = some true ↔
      ¬ t.Alike s ∨ (heartbeatFloor loopHz statusHz).toNat ≤ 1 := by
  have sends := sendsWhenDue loopHz statusHz [s, t]
  rw [sends.decides 1 t rfl]
  constructor
  · rintro (none | ⟨j, first, last, found, due⟩)
    · cases none
    · obtain rfl : j = 0 := Nat.lt_one_iff.mp last.before
      cases found
      exact due
  · intro due
    obtain ⟨j, last⟩ := sends.last 1 Nat.one_pos (Nat.le_succ 1)
    obtain rfl : j = 0 := Nat.lt_one_iff.mp last.before
    exact .inr ⟨0, s, last, rfl, due⟩

end StatusLimiter

theorem alike_of_reordered (once : ListsInOneOrder listed) {statuses others : List RobotStatus}
    (reordered : List.Forall₂ RobotStatus.Reordered statuses others) (ours : ListsFrom listed statuses)
    (theirs : ListsFrom listed others) : List.Forall₂ RobotStatus.Alike statuses others := by
  induction reordered with
  | nil => exact .nil
  | cons first _ ih =>
    have faults := once _ _ (ours _ List.mem_cons_self) (theirs _ List.mem_cons_self) first.motorFaults
    refine .cons (first.alike faults) (ih ?_ ?_)
    · exact fun s member => ours s (List.mem_cons_of_mem _ member)
    · exact fun s member => theirs s (List.mem_cons_of_mem _ member)

theorem decidesAlike_iff (loopHz statusHz : Float) (listed : List MotorFaultReport → Prop) :
    DecidesAlike loopHz statusHz listed ↔
      (heartbeatFloor loopHz statusHz).toNat = 1 ∨ ListsInOneOrder listed := by
  have positive := one_le_heartbeatFloor loopHz statusHz
  constructor
  · intro alike
    refine or_iff_not_imp_left.mpr fun several l m first second same => ?_
    -- A status twice, and once with the same faults in the other order: what is not sent there is not sent here.
    have decided := alike _ _ (listsFrom_pair first first) (listsFrom_pair first second)
      (.cons (reordered_withFaults (.refl l)) (.cons (reordered_withFaults same) .nil))
    have quiet : ((StatusLimiter.new loopHz statusHz).decisions [.withFaults l, .withFaults l])[1]? ≠ some true := by
      rw [ne_eq, StatusLimiter.second_sent_iff]
      rintro (different | few)
      · exact different ⟨fun _ => Iff.rfl, rfl, rfl⟩
      · omega
    rw [decided, ne_eq, StatusLimiter.second_sent_iff, not_or, not_not] at quiet
    exact quiet.1.motorFaults.symm
  · intro condition statuses others ours theirs reordered
    rcases condition with floor | once
    · rw [StatusLimiter.decisions_of_floor floor, StatusLimiter.decisions_of_floor floor, reordered.length_eq]
    · exact StatusLimiter.decisions_congr (alike_of_reordered once reordered ours theirs) _

theorem waitsForHeartbeat_iff (loopHz statusHz : Float) (listed : List MotorFaultReport → Prop) :
    WaitsForHeartbeat loopHz statusHz listed ↔
      (heartbeatFloor loopHz statusHz).toNat = 1 ∨ ListsInOneOrder listed := by
  have positive := one_le_heartbeatFloor loopHz statusHz
  constructor
  · intro waits
    refine or_iff_not_imp_left.mpr fun several l m first second same => ?_
    by_contra different
    have sent := (StatusLimiter.second_sent_iff loopHz statusHz (.withFaults m) (.withFaults l)).mpr
      (.inl fun alike => different alike.motorFaults)
    obtain ⟨j, last⟩ := (sendsWhenDue loopHz statusHz [.withFaults m, .withFaults l]).last 1 Nat.one_pos (Nat.le_succ 1)
    obtain rfl : j = 0 := Nat.lt_one_iff.mp last.before
    have few := waits _ (listsFrom_pair second first) 1 0 _ _ last sent rfl rfl (reordered_withFaults same)
    omega
  · intro condition statuses ours i j s t last sent here before reordered
    rcases condition with floor | once
    · have := last.before
      omega
    · rcases ((sendsWhenDue loopHz statusHz statuses).decides i s here).mp sent with rfl | ⟨k, u, also, found, due⟩
      · exact absurd last.before (Nat.not_lt_zero j)
      · obtain rfl := last.unique also
        obtain rfl := Option.some.inj (before.symm.trans found)
        have faults := once _ _ (ours s (List.mem_of_getElem? here)) (ours t (List.mem_of_getElem? before))
          reordered.motorFaults
        exact due.resolve_left fun different => different (reordered.alike faults)

/-- The order of faults plays no part in what is sent, neither in what two runs decide nor in what one sends ahead of
its heartbeat, exactly when every cycle sends or no faults of motors are listed in two orders. -/
theorem order_ignored_iff (loopHz statusHz : Float) (listed : List MotorFaultReport → Prop) :
    (DecidesAlike loopHz statusHz listed ↔
      (heartbeatFloor loopHz statusHz).toNat = 1 ∨ ListsInOneOrder listed) ∧
    (WaitsForHeartbeat loopHz statusHz listed ↔
      (heartbeatFloor loopHz statusHz).toNat = 1 ∨ ListsInOneOrder listed) := by
  constructor
  · exact decidesAlike_iff loopHz statusHz listed
  · exact waitsForHeartbeat_iff loopHz statusHz listed

/-- Two motors that are too hot. -/
def hotMotors : List MotorFaultReport :=
  [⟨.frontLeft, true, [.overTemperature]⟩, ⟨.backRight, true, [.overTemperature]⟩]

/-- At a floor of seven cycles the same two reports in the other order are sent at once. -/
theorem swapped_reports_sent :
    heartbeatFloor 200.0 30.0 = 7 ∧
      (RobotStatus.withFaults hotMotors).Reordered (.withFaults hotMotors.reverse) ∧
      (StatusLimiter.new 200.0 30.0).decisions [.withFaults hotMotors, .withFaults hotMotors] = [true, false] ∧
      (StatusLimiter.new 200.0 30.0).decisions [.withFaults hotMotors, .withFaults hotMotors.reverse] =
        [true, true] := by
  refine ⟨by decide +kernel, ?_, by decide +kernel, by decide +kernel⟩
  exact reordered_withFaults ⟨_, (List.reverse_perm hotMotors).symm, List.forall₂_same.mpr fun r _ => .refl r⟩

end Onboard
