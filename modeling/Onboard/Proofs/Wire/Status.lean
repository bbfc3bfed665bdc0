import Onboard.Proofs.Json.Record
import Onboard.Proofs.Json.Settled
import Onboard.Wire.Status

/-! Which statuses a receiver can read. A number that is not finite is written as a null, and no field for a number
takes one; everything else in a status is read whatever it says. -/

namespace Onboard

open Json

def CycleTimes.isFinite (t : CycleTimes) : Bool :=
  t.networkPoll.isFinite && t.executorStart.isFinite && t.executorStep.isFinite && t.powerPoll.isFinite &&
    t.motorPoll.isFinite && t.iteration.isFinite

def RoundTrip.isFinite (r : RoundTrip) : Bool :=
  r.aiSent.isFinite && r.robotReceived.isFinite && r.statusSent.isFinite

def NetworkStatus.isFinite (n : NetworkStatus) : Bool :=
  n.msSincePrimitive.isFinite && n.lossPercentage.isFinite && n.roundTrip.all RoundTrip.isFinite

def PowerStatus.isFinite (s : PowerStatus) : Bool :=
  s.batteryVoltage.isFinite && s.capacitorVoltage.isFinite && s.currentDraw.isFinite

def MotorStatus.isFinite (m : MotorStatus) : Bool :=
  m.velocity.isFinite && m.dribbler.isFinite

def RobotStatus.isFinite (s : RobotStatus) : Bool :=
  s.timeSent.isFinite && s.cycleTimes.isFinite && s.network.isFinite && s.power.isFinite && s.motor.isFinite &&
    s.cpuTemperature.isFinite && s.msSinceKicker.isFinite && s.msSinceChipper.isFinite

theorem isLegible_names {α : Type} (name : α → String) (l : List α) : IsLegible (Wire.names name l) :=
  (areLegible_iff _).mpr fun item member => by
    obtain ⟨x, -, rfl⟩ := List.mem_map.mp member
    exact isLegible_ofText (name x)

theorem isLegible_bool (value : Bool) : IsLegible (.bool value) :=
  trivial

theorem Velocity.isLegible (v : Velocity) : IsLegible v.toJson :=
  isLegible_zip (by simp [isLegible_ofFloat])

theorem CycleTimes.isLegible (t : CycleTimes) : IsLegible t.toJson :=
  isLegible_zip (by simp [isLegible_ofFloat])

theorem RoundTrip.isLegible (r : RoundTrip) : IsLegible r.toJson :=
  isLegible_zip (by simp [isLegible_ofFloat, isLegible_ofNat])

theorem NetworkStatus.isLegible (n : NetworkStatus) : IsLegible n.toJson := by
  refine isLegible_zip ?_
  cases n.roundTrip with
  | none => simp [isLegible_ofFloat, IsLegible]
  | some r => simp [isLegible_ofFloat, r.isLegible]

theorem PowerStatus.isLegible (s : PowerStatus) : IsLegible s.toJson :=
  isLegible_zip (by simp [isLegible_ofSingle, isLegible_ofNat, isLegible_bool])

theorem MotorFaultReport.isLegible (r : MotorFaultReport) : IsLegible r.toJson :=
  isLegible_zip (by simp [isLegible_ofText, isLegible_bool, isLegible_names])

theorem MotorStatus.isLegible (m : MotorStatus) : IsLegible m.toJson := by
  have faults : IsLegible (.array (m.faults.map MotorFaultReport.toJson)) :=
    (areLegible_iff _).mpr fun item member => by
      obtain ⟨r, -, rfl⟩ := List.mem_map.mp member
      exact r.isLegible
  exact isLegible_zip (by simp [m.velocity.isLegible, isLegible_ofFloat, faults])

theorem RobotStatus.isLegible (s : RobotStatus) : IsLegible s.toJson := by
  have timeSent : IsLegible (timestampToJson s.timeSent) := isLegible_zip (by simp [isLegible_ofFloat])
  have temperature : IsLegible (Wire.record (temperatureFields.zip [ofFloat s.cpuTemperature])) :=
    isLegible_zip (by simp [isLegible_ofFloat])
  have fired : IsLegible (Wire.record (firedFields.zip [ofFloat s.msSinceKicker, ofFloat s.msSinceChipper])) :=
    isLegible_zip (by simp [isLegible_ofFloat])
  have executor : IsLegible (Wire.record (executorFields.zip [.bool s.runningStop, .bool s.timedOut])) :=
    isLegible_zip (by simp [isLegible_bool])
  exact isLegible_zip (by
    simp [isLegible_ofNat, isLegible_ofText, isLegible_names, timeSent, s.cycleTimes.isLegible, s.network.isLegible,
      s.power.isLegible, s.motor.isLegible, temperature, fired, executor])

@[simp]
theorem isSome_pure {α : Type} (a : α) : (pure a : Option α).isSome = true := rfl

@[simp]
theorem any_const {α : Type} (x : Option α) (c : Bool) : x.any (fun _ => c) = (x.isSome && c) := by
  cases x with
  | none => rfl
  | some a => exact (Bool.true_and c).symm

theorem isSome_bind_const {α β : Type} {x : Option α} {f : α → Option β} {c : Bool}
    (each : ∀ a, (f a).isSome = c) : (x.bind f).isSome = (x.isSome && c) := by
  simp only [Option.isSome_bind, each, any_const]

theorem toBool?_settle (value : Bool) : toBool? (settle (.bool value)) = some value := rfl

@[simp]
theorem toText?_settle (text : String) : toText? (settle (ofText text)) = some text :=
  toText?_ofText text

theorem isSome_toNat? {n limit : ℕ} (bound : n ≤ limit) (small : limit ≤ Literal.most) :
    (toNat? limit (settle (ofNat n))).isSome = true := by
  rw [settle_ofNat (bound.trans small), toNat?_ofNat bound]
  rfl

theorem isSome_named? {α : Type} (name : α → String) {all : List α} {x : α} (member : x ∈ all) :
    (Wire.named? name all (settle (ofText (name x)))).isSome = true := by
  have text : toUnitVariant? (settle (ofText (name x))) = some (name x) := by
    change (((contentText? _).map (·, none)).bind _) = _
    rw [contentText?_escape]
    rfl
  rw [Wire.named?, text]
  exact List.find?_isSome.mpr ⟨x, member, decide_eq_true rfl⟩

theorem isSome_mapM {α β : Type} {f : α → Option β} {l : List α} (each : ∀ x ∈ l, (f x).isSome = true) :
    (l.mapM f).isSome = true := by
  induction l with
  | nil => rfl
  | cons x rest ih =>
    obtain ⟨y, first⟩ := Option.isSome_iff_exists.mp (each x List.mem_cons_self)
    obtain ⟨ys, others⟩ := Option.isSome_iff_exists.mp (ih fun z member => each z (List.mem_cons_of_mem _ member))
    rw [List.mapM_cons, first, others]
    rfl

theorem isSome_toList? {α β : Type} {item : Json → Option β} {toJson : α → Json} {l : List α}
    (each : ∀ x ∈ l, (item (settle (toJson x))).isSome = true) :
    (toList? item (settle (.array (l.map toJson)))).isSome = true := by
  rw [settle, settleItems_eq, List.map_map]
  refine isSome_mapM fun j member => ?_
  obtain ⟨x, inside, rfl⟩ := List.mem_map.mp member
  exact each x inside

theorem Motor.mem_all (m : Motor) : m ∈ all := by
  cases m <;> decide

theorem MotorFault.mem_all (f : MotorFault) : f ∈ all := by
  cases f <;> decide

theorem Velocity.isSome_ofJson? (v : Velocity) : (ofJson? (settle v.toJson)).isSome = v.isFinite := by
  unfold ofJson? toJson
  rw [fields?_settle (by decide) rfl]
  simp [required, Option.isSome_bind, isFinite, Bool.and_assoc]

theorem CycleTimes.isSome_ofJson? (t : CycleTimes) : (ofJson? (settle t.toJson)).isSome = t.isFinite := by
  unfold ofJson? toJson
  rw [fields?_settle (by decide) rfl]
  simp [required, Option.isSome_bind, isFinite, Bool.and_assoc]

theorem isSome_timestamp? (seconds : Float) :
    (timestamp? (settle (timestampToJson seconds))).isSome = seconds.isFinite := by
  unfold timestamp? timestampToJson
  rw [fields?_settle (by decide) rfl]
  simp [required]

theorem RoundTrip.isSome_ofJson? (r : RoundTrip) : (ofJson? (settle r.toJson)).isSome = r.isFinite := by
  have sequence := isSome_toNat? (Nat.le_of_lt_succ r.sequence.toNat_lt) (Nat.le_refl Literal.most)
  unfold ofJson? toJson
  rw [fields?_settle (by decide) rfl]
  simp [required, Option.isSome_bind, isFinite, Bool.and_assoc, sequence]

theorem isSome_toOption? {α : Type} (item : Json → Option α) {j : Json} (present : j ≠ .null) :
    (toOption? item j).isSome = (item j).isSome := by
  cases j with
  | null => exact absurd rfl present
  | _ => exact Option.isSome_map

theorem NetworkStatus.isSome_ofJson? (n : NetworkStatus) : (ofJson? (settle n.toJson)).isSome = n.isFinite := by
  unfold ofJson? toJson
  rw [fields?_settle (by decide) rfl]
  cases trip : n.roundTrip with
  | none =>
    have nothing : toOption? RoundTrip.ofJson? (settle .null) = some none := rfl
    simp [required, Option.isSome_bind, isFinite, trip, nothing]
  | some r =>
    have present : settle r.toJson ≠ .null := by
      rw [RoundTrip.toJson, settle_zip]
      exact nofun
    simp [required, Option.isSome_bind, isFinite, Bool.and_assoc, trip, isSome_toOption? _ present, r.isSome_ofJson?]

theorem PowerStatus.isSome_ofJson? (s : PowerStatus) : (ofJson? (settle s.toJson)).isSome = s.isFinite := by
  have sequence : (toNat? 0xFFFF (settle (ofNat s.sequence.toNat))).isSome = true :=
    isSome_toNat? (Nat.le_of_lt_succ s.sequence.toNat_lt) (by decide)
  unfold ofJson? toJson
  rw [fields?_settle (by decide) rfl]
  simp [required, Option.isSome_bind, isFinite, Bool.and_assoc, sequence, toBool?_settle]

theorem MotorFaultReport.isSome_ofJson? (r : MotorFaultReport) : (ofJson? (settle r.toJson)).isSome = true := by
  have motor := isSome_named? Motor.name r.motor.mem_all
  have faults : (toList? (Wire.named? MotorFault.name MotorFault.all)
      (settle (Wire.names MotorFault.name r.faults))).isSome = true :=
    isSome_toList? fun f _ => isSome_named? MotorFault.name f.mem_all
  unfold ofJson? toJson
  rw [fields?_settle (by decide) rfl]
  simp [required, Option.isSome_bind, motor, faults, toBool?_settle]

theorem MotorStatus.isSome_ofJson? (m : MotorStatus) : (ofJson? (settle m.toJson)).isSome = m.isFinite := by
  have faults : (toList? MotorFaultReport.ofJson? (settle (.array (m.faults.map MotorFaultReport.toJson)))).isSome =
      true :=
    isSome_toList? fun r _ => r.isSome_ofJson?
  unfold ofJson? toJson
  rw [fields?_settle (by decide) rfl]
  simp [required, Option.isSome_bind, isFinite, m.velocity.isSome_ofJson?, faults]

theorem RobotStatus.isSome_temperature? (x : Float) :
    (temperature? (settle (Wire.record (temperatureFields.zip [ofFloat x])))).isSome = x.isFinite := by
  unfold temperature?
  rw [fields?_settle (by decide) rfl]
  simp [required]

theorem RobotStatus.isSome_fired? (kicker chipper : Float) :
    (fired? (settle (Wire.record (firedFields.zip [ofFloat kicker, ofFloat chipper])))).isSome =
      (kicker.isFinite && chipper.isFinite) := by
  unfold fired?
  rw [fields?_settle (by decide) rfl]
  simp [required, Option.isSome_bind]

theorem RobotStatus.isSome_executor? (runningStop timedOut : Bool) :
    (executor? (settle (Wire.record (executorFields.zip [.bool runningStop, .bool timedOut])))).isSome = true := by
  unfold executor?
  rw [fields?_settle (by decide) rfl]
  simp [required, toBool?_settle]

theorem RobotStatus.isSome_ofJson? (s : RobotStatus) : (ofJson? (settle s.toJson)).isSome = s.isFinite := by
  have robotId : (toNat? 0xFFFFFFFF (settle (ofNat s.robotId.toNat))).isSome = true :=
    isSome_toNat? (Nat.le_of_lt_succ s.robotId.toNat_lt) (by decide)
  have lastHandled := isSome_toNat? (Nat.le_of_lt_succ s.lastHandled.toNat_lt) (Nat.le_refl Literal.most)
  have errorCodes : (toList? ErrorCode.ofJson? (settle (Wire.names ErrorCode.name s.errorCodes))).isSome = true :=
    isSome_toList? fun e _ => isSome_named? ErrorCode.name e.mem_all
  have executor := isSome_executor? s.runningStop s.timedOut
  have fired := isSome_fired? s.msSinceKicker s.msSinceChipper
  let others := s.timeSent.isFinite && s.cycleTimes.isFinite && s.network.isFinite && s.power.isFinite &&
    s.motor.isFinite && s.cpuTemperature.isFinite
  unfold ofJson? toJson
  rw [fields?_settle (by decide) rfl]
  -- The pairs come first, and what follows is read or not whatever they are.
  change (Option.bind (required fired? (some _)) _).isSome = _
  refine (isSome_bind_const (c := others) ?apart).trans ?all
  case apart =>
    rintro ⟨kicker, chipper⟩
    change (Option.bind (required executor? (some _)) _).isSome = _
    refine (isSome_bind_const (c := others) ?single).trans (congrArg (· && others) executor)
    case single =>
      rintro ⟨runningStop, timedOut⟩
      simp only [Option.bind_eq_bind, required, Option.bind_some, Option.isSome_bind, isSome_pure, any_const, robotId,
        lastHandled, errorCodes, isSome_timestamp?, s.cycleTimes.isSome_ofJson?, s.network.isSome_ofJson?,
        s.power.isSome_ofJson?, s.motor.isSome_ofJson?, isSome_temperature?, toText?_settle,
        Bool.true_and, Bool.and_true, Bool.and_assoc, others]
  case all =>
    have order : (s.msSinceKicker.isFinite && s.msSinceChipper.isFinite && others) = s.isFinite := by
      rw [isFinite, Bool.and_comm, ← Bool.and_assoc]
    exact (congrArg (· && others) fired).trans order

/-- A status is read just if all its numbers are finite. -/
theorem isSome_read_status (s : RobotStatus) :
    (Wire.read? (Wire.write s) : Option RobotStatus).isSome = s.isFinite := by
  change ((parse? s.toJson.print).bind fun j => RobotStatus.ofJson? j.settle).isSome = _
  rw [parse?_print s.isLegible]
  exact s.isSome_ofJson?

end Onboard
