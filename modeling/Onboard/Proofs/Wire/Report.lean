import Onboard.Proofs.Json.Kept
import Onboard.Proofs.Wire.PrimitiveSet
import Onboard.Proofs.Wire.Status
import Onboard.Telemetry.Message

/-! Which statuses, crash reports and packets come back from the wire as they were. -/

namespace Onboard

open Json

def CycleTimes.numbers (t : CycleTimes) : List Float :=
  [t.networkPoll, t.executorStart, t.executorStep, t.powerPoll, t.motorPoll, t.iteration]

def RoundTrip.numbers (r : RoundTrip) : List Float :=
  [r.aiSent, r.robotReceived, r.statusSent]

def NetworkStatus.numbers (n : NetworkStatus) : List Float :=
  [n.msSincePrimitive, n.lossPercentage] ++ (n.roundTrip.map RoundTrip.numbers).getD []

def MotorStatus.numbers (m : MotorStatus) : List Float :=
  m.velocity.numbers ++ [m.dribbler]

def PowerStatus.singles (s : PowerStatus) : List Single :=
  [s.batteryVoltage, s.capacitorVoltage, s.currentDraw]

def TelemetryPacket.numbers (p : TelemetryPacket) : List Float :=
  [p.epochTime, p.cpuTemperature, p.iterationMs]

def TelemetryPacket.singles (p : TelemetryPacket) : List Single :=
  [p.batteryVoltage, p.capacitorVoltage, p.currentDraw]

def RobotStatus.singles (s : RobotStatus) : List Single :=
  s.power.singles

theorem RobotStatus.forall_numbers (s : RobotStatus) (p : Float → Prop) : (∀ x ∈ s.numbers, p x) ↔
    p s.timeSent ∧ (∀ x ∈ s.cycleTimes.numbers, p x) ∧ (∀ x ∈ s.network.numbers, p x) ∧ (∀ x ∈ s.motor.numbers, p x) ∧
      p s.cpuTemperature ∧ p s.msSinceKicker ∧ p s.msSinceChipper := by
  obtain ⟨_, _, _, _, ⟨_, _, trip⟩, _, _, _, _, _, _, _, _, _, _⟩ := s
  cases trip <;>
    simp [numbers, CycleTimes.numbers, NetworkStatus.numbers, RoundTrip.numbers, MotorStatus.numbers,
      Velocity.numbers, and_assoc]

section Kept
variable {σ : Json → Json} (reads : Renumbers σ)
include reads

theorem CycleTimes.ofJson?_eq_iff (t : CycleTimes) :
    ofJson? (σ t.toJson) = some t ↔ ∀ x ∈ t.numbers, KeepsFloat σ x := by
  obtain ⟨_, _, _, _, _, _⟩ := t
  unfold ofJson? toJson
  rw [reads.fields? _ _ (by decide) rfl]
  simp [required, Option.bind_eq_some_iff, numbers, KeepsFloat]

theorem RoundTrip.ofJson?_eq_iff (r : RoundTrip) :
    ofJson? (σ r.toJson) = some r ↔ ∀ x ∈ r.numbers, KeepsFloat σ x := by
  have sequence : toNat? 0xFFFFFFFFFFFFFFFF (σ (ofNat r.sequence.toNat)) = some r.sequence.toNat :=
    reads.toNat? (Nat.le_of_lt_succ r.sequence.toNat_lt) (Nat.le_refl _)
  obtain ⟨_, _, _, _⟩ := r
  unfold ofJson? toJson
  rw [reads.fields? _ _ (by decide) rfl]
  simp [required, Option.bind_eq_some_iff, sequence, numbers, KeepsFloat]

theorem PowerStatus.ofJson?_eq_iff (s : PowerStatus) :
    ofJson? (σ s.toJson) = some s ↔ ∀ x ∈ s.singles, KeepsSingle σ x := by
  have sequence : toNat? 0xFFFF (σ (ofNat s.sequence.toNat)) = some s.sequence.toNat :=
    reads.toNat? (Nat.le_of_lt_succ s.sequence.toNat_lt) (by decide)
  obtain ⟨_, _, _, _, _⟩ := s
  unfold ofJson? toJson
  rw [reads.fields? _ _ (by decide) rfl]
  simp [required, Option.bind_eq_some_iff, sequence, reads.toBool?, singles, KeepsSingle]

theorem MotorFaultReport.ofJson?_eq (r : MotorFaultReport) : ofJson? (σ r.toJson) = some r := by
  have motor : Wire.named? Motor.name Motor.all (σ (ofText r.motor.name)) = some r.motor :=
    reads.named? r.motor.mem_all (by cases r.motor <;> decide)
  have faults : toList? (Wire.named? MotorFault.name MotorFault.all) (σ (Wire.names MotorFault.name r.faults)) =
      some r.faults :=
    reads.toList? fun f _ => reads.named? f.mem_all (by cases f <;> decide)
  unfold ofJson? toJson
  rw [reads.fields? _ _ (by decide) rfl]
  simp [required, motor, faults, reads.toBool?]

theorem MotorStatus.ofJson?_eq_iff (m : MotorStatus) :
    ofJson? (σ m.toJson) = some m ↔ ∀ x ∈ m.numbers, KeepsFloat σ x := by
  have velocity := m.velocity.ofJson?_eq_iff reads
  have faults : toList? MotorFaultReport.ofJson? (σ (.array (m.faults.map MotorFaultReport.toJson))) = some m.faults :=
    reads.toList? fun r _ => r.ofJson?_eq reads
  obtain ⟨_, _, _⟩ := m
  unfold ofJson? toJson
  rw [reads.fields? _ _ (by decide) rfl]
  simp [required, Option.bind_eq_some_iff, velocity, faults, numbers, KeepsFloat, or_imp, forall_and]

theorem NetworkStatus.ofJson?_eq_iff (n : NetworkStatus) :
    ofJson? (σ n.toJson) = some n ↔ ∀ x ∈ n.numbers, KeepsFloat σ x := by
  obtain ⟨_, _, trip⟩ := n
  unfold ofJson? toJson
  rw [reads.fields? _ _ (by decide) rfl]
  cases trip with
  | none =>
    have nothing : toOption? RoundTrip.ofJson? (σ .null) = some none := by
      rw [reads.null]
      rfl
    simp [required, Option.bind_eq_some_iff, nothing, numbers, KeepsFloat]
  | some r =>
    have trip := r.ofJson?_eq_iff reads
    have present : toOption? RoundTrip.ofJson? (σ r.toJson) = (RoundTrip.ofJson? (σ r.toJson)).map some := by
      rw [RoundTrip.toJson, Wire.record, reads.object]
      rfl
    simp [required, Option.bind_eq_some_iff, present, trip, numbers, KeepsFloat]

theorem RobotStatus.ofJson?_eq_iff (s : RobotStatus) : ofJson? (σ s.toJson) = some s ↔
    (∀ x ∈ s.numbers, KeepsFloat σ x) ∧ ∀ x ∈ s.singles, KeepsSingle σ x := by
  have robotId : toNat? 0xFFFFFFFF (σ (ofNat s.robotId.toNat)) = some s.robotId.toNat :=
    reads.toNat? (Nat.le_of_lt_succ s.robotId.toNat_lt) (by decide)
  have lastHandled : toNat? 0xFFFFFFFFFFFFFFFF (σ (ofNat s.lastHandled.toNat)) = some s.lastHandled.toNat :=
    reads.toNat? (Nat.le_of_lt_succ s.lastHandled.toNat_lt) (Nat.le_refl _)
  have errorCodes : toList? ErrorCode.ofJson? (σ (Wire.names ErrorCode.name s.errorCodes)) = some s.errorCodes :=
    reads.toList? fun e _ => reads.named? e.mem_all (by cases e <;> decide)
  have temperature : temperature? (σ (Wire.record (temperatureFields.zip [ofFloat s.cpuTemperature]))) =
      toFloat? (σ (ofFloat s.cpuTemperature)) := by
    rw [temperature?, reads.fields? _ _ (by decide) rfl]
    rfl
  have fired : fired? (σ (Wire.record (firedFields.zip [ofFloat s.msSinceKicker, ofFloat s.msSinceChipper]))) =
      some (s.msSinceKicker, s.msSinceChipper) ↔ KeepsFloat σ s.msSinceKicker ∧ KeepsFloat σ s.msSinceChipper := by
    rw [fired?, reads.fields? _ _ (by decide) rfl]
    simp [required, Option.bind_eq_some_iff, KeepsFloat]
  have executor : executor? (σ (Wire.record (executorFields.zip [.bool s.runningStop, .bool s.timedOut]))) =
      some (s.runningStop, s.timedOut) := by
    rw [executor?, reads.fields? _ _ (by decide) rfl]
    simp [required, reads.toBool?]
  have timeSent := timestamp?_record reads s.timeSent
  have cycleTimes := s.cycleTimes.ofJson?_eq_iff reads
  have network := s.network.ofJson?_eq_iff reads
  have power := s.power.ofJson?_eq_iff reads
  have motor := s.motor.ofJson?_eq_iff reads
  have fields := reads.fields? fieldNames [ofNat s.robotId.toNat, ofNat s.lastHandled.toNat, timestampToJson s.timeSent,
    s.cycleTimes.toJson, s.network.toJson, s.power.toJson, s.motor.toJson,
    Wire.record (temperatureFields.zip [ofFloat s.cpuTemperature]),
    Wire.record (firedFields.zip [ofFloat s.msSinceKicker, ofFloat s.msSinceChipper]),
    Wire.record (executorFields.zip [.bool s.runningStop, .bool s.timedOut]),
    Wire.names ErrorCode.name s.errorCodes, ofText s.firmwareVersion, ofText s.dateFlashed] (by decide) rfl
  rw [ofJson?, toJson, fields]
  change Option.bind (required fired? (some _)) _ = some s ↔ _
  rw [forall_numbers]
  constructor
  · intro read
    obtain ⟨⟨kicker, chipper⟩, firedRead, read⟩ := Option.bind_eq_some_iff.mp read
    obtain ⟨⟨runningStop, timedOut⟩, -, read⟩ := Option.bind_eq_some_iff.mp read
    simp only [required, Option.bind_eq_bind, Option.bind_some, Option.bind_eq_some_iff, Option.pure_def,
      Option.some.injEq] at read
    obtain ⟨_, -, _, -, _, timeRead, _, cycleRead, _, networkRead, _, powerRead, _, motorRead, _, temperatureRead,
      _, -, _, -, _, -, rfl⟩ := read
    have firedKept := fired.mp firedRead
    exact ⟨⟨timeSent.symm.trans timeRead, cycleTimes.mp cycleRead, network.mp networkRead, motor.mp motorRead,
      temperature.symm.trans temperatureRead, firedKept.1, firedKept.2⟩, power.mp powerRead⟩
  · rintro ⟨⟨timeKept, cycleKept, networkKept, motorKept, temperatureKept, kickerKept, chipperKept⟩, powerKept⟩
    have firedRead := fired.mpr ⟨kickerKept, chipperKept⟩
    rw [required, Option.bind_some, firedRead, Option.bind_some]
    change Option.bind (executor? _) _ = _
    rw [executor, Option.bind_some]
    simp only [required, Option.bind_eq_bind, Option.bind_some, robotId, lastHandled, errorCodes, reads.toText?,
      timeSent.trans timeKept, temperature.trans temperatureKept, cycleTimes.mpr cycleKept, network.mpr networkKept,
      power.mpr powerKept, motor.mpr motorKept, Option.pure_def, UInt32.ofNat_toNat, UInt64.ofNat_toNat]

theorem CrashReport.ofJson?_eq_iff (c : CrashReport) : ofJson? (σ c.toJson) = some c ↔
    (∀ x ∈ c.status.numbers, KeepsFloat σ x) ∧ ∀ x ∈ c.status.singles, KeepsSingle σ x := by
  have robotId : toNat? 0xFFFFFFFF (σ (ofNat c.robotId.toNat)) = some c.robotId.toNat :=
    reads.toNat? (Nat.le_of_lt_succ c.robotId.toNat_lt) (by decide)
  have status := c.status.ofJson?_eq_iff reads
  obtain ⟨_, _, _, _⟩ := c
  unfold ofJson? toJson
  rw [reads.fields? _ _ (by decide) rfl]
  simp [required, Option.bind_eq_some_iff, robotId, status, reads.toText?]

theorem TelemetryPacket.ofJson?_eq_iff (p : TelemetryPacket) : ofJson? (σ p.toJson) = some p ↔
    (∀ x ∈ p.numbers, KeepsFloat σ x) ∧ ∀ x ∈ p.singles, KeepsSingle σ x := by
  have robotId : toNat? 0xFFFFFFFF (σ (ofNat p.robotId.toNat)) = some p.robotId.toNat :=
    reads.toNat? (Nat.le_of_lt_succ p.robotId.toNat_lt) (by decide)
  have lastHandled : toNat? 0xFFFFFFFFFFFFFFFF (σ (ofNat p.lastHandled.toNat)) = some p.lastHandled.toNat :=
    reads.toNat? (Nat.le_of_lt_succ p.lastHandled.toNat_lt) (Nat.le_refl _)
  have errorCodes : toList? ErrorCode.ofJson? (σ (Wire.names ErrorCode.name p.errorCodes)) = some p.errorCodes :=
    reads.toList? fun e _ => reads.named? e.mem_all (by cases e <;> decide)
  obtain ⟨_, _, _, _, _, _, _, _, _⟩ := p
  unfold ofJson? toJson
  rw [reads.fields? _ _ (by decide) rfl]
  simp only [List.map_cons, List.map_nil, required, Option.bind_eq_bind, Option.bind_some, Option.bind_eq_some_iff,
    Option.pure_def, Option.some.injEq, mk.injEq, robotId, lastHandled, errorCodes]
  simp [numbers, singles, KeepsFloat, KeepsSingle]
  tauto

end Kept

theorem CrashReport.isLegible (c : CrashReport) : IsLegible c.toJson :=
  isLegible_zip (by simp [isLegible_ofNat, isLegible_ofText, c.status.isLegible])

theorem TelemetryPacket.isLegible (p : TelemetryPacket) : IsLegible p.toJson :=
  isLegible_zip (by simp [isLegible_ofNat, isLegible_ofFloat, isLegible_ofSingle, isLegible_names])

/-- Finite numbers, none of them the single that is read wrong by way of a double. -/
structure AreExact (numbers : List Float) (singles : List Single) : Prop where
  finite : ∀ x ∈ numbers, x.isFinite = true
  usual : ∀ x ∈ singles, x.isFinite = true ∧ x.magnitude ≠ Decimal.excusedMagnitude

/-- Finite numbers, the doubles among them such as the arithmetic of receivers brings out as they were. -/
structure AreReceived (numbers : List Float) (singles : List Single) : Prop where
  unchanged : ∀ x ∈ numbers, x.isFinite = true ∧ received x = x
  finite : ∀ x ∈ singles, x.isFinite = true

theorem areExact_iff {numbers : List Float} {singles : List Single} : AreExact numbers singles ↔
    (∀ x ∈ numbers, KeepsFloat id x) ∧ ∀ x ∈ singles, KeepsSingle id x := by
  have number (x : Float) : KeepsFloat id x ↔ x.isFinite = true := toFloat?_ofFloat_iff x
  have single (x : Single) : KeepsSingle id x ↔ x.isFinite = true ∧ x.magnitude ≠ Decimal.excusedMagnitude :=
    toSingle?_ofSingle_iff x
  simp only [number, single]
  exact ⟨fun ⟨finite, usual⟩ => ⟨finite, usual⟩, fun ⟨finite, usual⟩ => ⟨finite, usual⟩⟩

theorem areReceived_iff {numbers : List Float} {singles : List Single} : AreReceived numbers singles ↔
    (∀ x ∈ numbers, KeepsFloat settle x) ∧ ∀ x ∈ singles, KeepsSingle settle x := by
  have number (x : Float) : KeepsFloat settle x ↔ x.isFinite = true ∧ received x = x := toFloat?_settle_iff x
  have single (x : Single) : KeepsSingle settle x ↔ x.isFinite = true := toSingle?_settle_iff x
  simp only [number, single]
  exact ⟨fun ⟨unchanged, finite⟩ => ⟨unchanged, finite⟩, fun ⟨unchanged, finite⟩ => ⟨unchanged, finite⟩⟩

/-- Receivers bring out what an exact reader does if the doubles have few digits. -/
theorem AreExact.received {numbers : List Float} {singles : List Single} (areExact : AreExact numbers singles)
    (few : ∀ x ∈ numbers, hasFewDigits x = true) : AreReceived numbers singles where
  unchanged x member := ⟨areExact.finite x member, received_of_few (areExact.finite x member) (few x member)⟩
  finite x member := (areExact.usual x member).1

theorem RobotStatus.readExact?_write_iff (s : RobotStatus) :
    Wire.readExact? (Wire.write s) = some s ↔ AreExact s.numbers s.singles := by
  rw [Wire.readExact?_write s.isLegible, areExact_iff]
  exact s.ofJson?_eq_iff renumbers_id

theorem RobotStatus.read?_write_iff (s : RobotStatus) :
    Wire.read? (Wire.write s) = some s ↔ AreReceived s.numbers s.singles := by
  rw [Wire.read?_write s.isLegible, areReceived_iff]
  exact s.ofJson?_eq_iff renumbers_settle

theorem CrashReport.readExact?_write_iff (c : CrashReport) :
    Wire.readExact? (Wire.write c) = some c ↔ AreExact c.status.numbers c.status.singles := by
  rw [Wire.readExact?_write c.isLegible, areExact_iff]
  exact c.ofJson?_eq_iff renumbers_id

theorem CrashReport.read?_write_iff (c : CrashReport) :
    Wire.read? (Wire.write c) = some c ↔ AreReceived c.status.numbers c.status.singles := by
  rw [Wire.read?_write c.isLegible, areReceived_iff]
  exact c.ofJson?_eq_iff renumbers_settle

theorem TelemetryPacket.readExact?_write_iff (p : TelemetryPacket) :
    Wire.readExact? (Wire.write p) = some p ↔ AreExact p.numbers p.singles := by
  rw [Wire.readExact?_write p.isLegible, areExact_iff]
  exact p.ofJson?_eq_iff renumbers_id

theorem TelemetryPacket.read?_write_iff (p : TelemetryPacket) :
    Wire.read? (Wire.write p) = some p ↔ AreReceived p.numbers p.singles := by
  rw [Wire.read?_write p.isLegible, areReceived_iff]
  exact p.ofJson?_eq_iff renumbers_settle

end Onboard
