import Mathlib.Data.List.Pairwise
import Onboard.Proofs.Loop.Policy

/-! The error codes of a status. They are judged anew in each cycle, from its own readings of the power board and from
what the last cycle on a full second has read of the computer; no code outlives the condition that it stands for. -/

namespace Onboard

/-- What a list of codes says of the readings that it was judged from. -/
structure Judges (thresholds : FaultThresholds) (timeout : Duration) (i : FaultInputs) (codes : List ErrorCode) :
    Prop where
  ascending : codes.Pairwise fun a b => a.rank < b.rank
  peripheralDisconnected_iff : .peripheralDisconnected ∈ codes ↔ ∀ age, i.powerAge = some age → timeout < age
  disconnected : .peripheralDisconnected ∈ codes → .lowBattery ∉ codes ∧ .highCap ∉ codes
  lowBattery_iff : .peripheralDisconnected ∉ codes →
    (.lowBattery ∈ codes ↔ i.power.batteryVoltage.toFloat ≤ thresholds.lowBattery.toFloat)
  highCap_iff : .peripheralDisconnected ∉ codes →
    (.highCap ∈ codes ↔ thresholds.highCapacitor.toFloat ≤ i.power.capacitorVoltage.toFloat)
  highBoardTemp_iff : .highBoardTemp ∈ codes ↔ ∃ t, i.cpuTemperature = some t ∧ thresholds.highBoardTemperature ≤ t
  unstablePowerSupply_iff : .unstablePowerSupply ∈ codes ↔ i.powerStable = false

section Judges
variable {thresholds : FaultThresholds} {timeout : Duration} {i : FaultInputs} {codes others : List ErrorCode}

/-- The readings leave no choice of codes. -/
theorem Judges.mem_iff (first : Judges thresholds timeout i codes) (second : Judges thresholds timeout i others)
    (e : ErrorCode) : e ∈ codes ↔ e ∈ others := by
  have same := first.peripheralDisconnected_iff.trans second.peripheralDisconnected_iff.symm
  cases e with
  | peripheralDisconnected => exact same
  | highBoardTemp => exact first.highBoardTemp_iff.trans second.highBoardTemp_iff.symm
  | unstablePowerSupply => exact first.unstablePowerSupply_iff.trans second.unstablePowerSupply_iff.symm
  | lowBattery =>
    by_cases gone : .peripheralDisconnected ∈ codes
    · exact iff_of_false (first.disconnected gone).1 (second.disconnected (same.mp gone)).1
    · exact (first.lowBattery_iff gone).trans (second.lowBattery_iff (mt same.mpr gone)).symm
  | highCap =>
    by_cases gone : .peripheralDisconnected ∈ codes
    · exact iff_of_false (first.disconnected gone).2 (second.disconnected (same.mp gone)).2
    · exact (first.highCap_iff gone).trans (second.highCap_iff (mt same.mpr gone)).symm

theorem Judges.nodup (judges : Judges thresholds timeout i codes) : codes.Nodup := by
  unfold List.Nodup
  apply judges.ascending.imp
  rintro a _ less rfl
  exact Nat.lt_irrefl _ less

theorem Judges.eq (first : Judges thresholds timeout i codes) (second : Judges thresholds timeout i others) :
    codes = others := by
  apply List.Perm.eq_of_pairwise _ first.ascending second.ascending
  · rw [List.perm_ext_iff_of_nodup first.nodup second.nodup]
    exact first.mem_iff second
  · intro a b _ _ less greater
    exact absurd greater (Nat.lt_asymm less)

theorem FaultInputs.judges_faults (i : FaultInputs) (thresholds : FaultThresholds) (timeout : Duration) :
    Judges thresholds timeout i (i.faults thresholds timeout) := by
  constructor
  case ascending =>
    apply List.Pairwise.filter
    decide
  all_goals simp only [faults, List.mem_filter, ErrorCode.mem_all, true_and]
  case peripheralDisconnected_iff =>
    rw [Bool.not_eq_true']
    cases i.powerAge <;> simp
  case disconnected =>
    intro gone
    rw [Bool.not_eq_true'] at gone
    simp only [gone, Bool.false_and, Bool.false_eq_true, not_false_eq_true, and_self]
  case lowBattery_iff | highCap_iff =>
    intro heard
    rw [Bool.not_eq_true', Bool.not_eq_false] at heard
    simp only [heard, Bool.true_and, decide_eq_true_eq]
  case highBoardTemp_iff => cases i.cpuTemperature <;> simp
  case unstablePowerSupply_iff => rw [Bool.not_eq_true']

end Judges

/-- The nearest number of cycles in a second, at least one. -/
def cyclesInSecond (hz : Float) : ℕ :=
  max 1 (Double.round hz).toUInt64.toNat

/-- The cycles whose numbers are multiples of the cycles in a second. -/
def secondCycles (settings : LoopSettings) (inputs : List CycleInput) : List CycleInput :=
  (inputs.zipIdx.filter fun (_, number) => number % cyclesInSecond settings.loopHz = 0).map Prod.fst

/-- The temperature that the last of some cycles reads, if it can be read. -/
def latestTemperature (settings : LoopSettings) (seconds : List CycleInput) : Option Float :=
  seconds.getLast?.bind fun i =>
    (Host.temperature settings.temperaturePath (FileNode.text? (i.files settings.temperaturePath))).1

/-- The monitor of the kernel's log after the checks of some cycles. -/
def monitorAfter (settings : LoopSettings) (files : String → Option FileNode) (seconds : List CycleInput) :
    StabilityMonitor :=
  seconds.foldl (fun m i => (m.check (i.files settings.kernelLogPath)).2.1)
    (.new settings.kernelLogPath (files settings.kernelLogPath))

/-- What the check of the last of some cycles says. -/
def latestStability (settings : LoopSettings) (files : String → Option FileNode) (seconds : List CycleInput) : Bool :=
  seconds.getLast?.all fun i =>
    ((monitorAfter settings files seconds.dropLast).check (i.files settings.kernelLogPath)).1

theorem secondCycles_concat (settings : LoopSettings) (inputs : List CycleInput) (input : CycleInput) :
    secondCycles settings (inputs ++ [input]) = secondCycles settings inputs ++
      if inputs.length % cyclesInSecond settings.loopHz = 0 then [input] else [] := by
  unfold secondCycles
  rw [List.zipIdx_append, List.filter_append, List.map_append]
  congr 1
  split <;> simp [*]

/-- The readings that a cycle judges after some others. -/
def latestReadings (settings : LoopSettings) (files : String → Option FileNode) (inputs : List CycleInput)
    (input : CycleInput) : FaultInputs :=
  let seconds := secondCycles settings (inputs ++ [input])
  ⟨input.power, input.powerAge, latestTemperature settings seconds, latestStability settings files seconds⟩

theorem latestTemperature_concat (settings : LoopSettings) (seconds : List CycleInput) (input : CycleInput) :
    latestTemperature settings (seconds ++ [input]) =
      (Host.temperature settings.temperaturePath (FileNode.text? (input.files settings.temperaturePath))).1 := by
  rw [latestTemperature, List.getLast?_concat, Option.bind_some]

theorem latestStability_concat (settings : LoopSettings) (files : String → Option FileNode) (seconds : List CycleInput)
    (input : CycleInput) : latestStability settings files (seconds ++ [input]) =
      ((monitorAfter settings files seconds).check (input.files settings.kernelLogPath)).1 := by
  rw [latestStability, List.getLast?_concat, List.dropLast_concat, Option.all_some]

theorem monitorAfter_concat (settings : LoopSettings) (files : String → Option FileNode) (seconds : List CycleInput)
    (input : CycleInput) : monitorAfter settings files (seconds ++ [input]) =
      ((monitorAfter settings files seconds).check (input.files settings.kernelLogPath)).2.1 := by
  rw [monitorAfter, List.foldl_concat]
  rfl

namespace ControlLoop

/-- What a loop holds of the computer after reading it, or not. -/
structure Sampled (l : ControlLoop) (files : String → Option FileNode) (store : CycleStore)
    (stability : StabilityMonitor) : Prop where
  temperature : store.cpuTemperature = if l.store.isSecondCycle then
    (Host.temperature l.settings.temperaturePath (FileNode.text? (files l.settings.temperaturePath))).1
    else l.store.cpuTemperature
  powerStable : store.powerStable = if l.store.isSecondCycle then
    (l.stability.check (files l.settings.kernelLogPath)).1 else l.store.powerStable
  stability : stability = if l.store.isSecondCycle then
    (l.stability.check (files l.settings.kernelLogPath)).2.1 else l.stability

theorem sampled (l : ControlLoop) (files : String → Option FileNode) :
    ∃ store stability, Sampled l files store stability ∧
      (l.sample files).1 = { l with store := store, stability := stability } := by
  unfold sample
  split
  · next second =>
    refine ⟨_, _, ?_, rfl⟩
    constructor <;> exact (if_pos second).symm
  · next between =>
    refine ⟨l.store, l.stability, ?_, rfl⟩
    constructor <;> exact (if_neg between).symm

/-- The codes of a cycle are judged from its readings of the board and the latest ones of the computer. -/
theorem sampled_of_cycle (ended : cycle l input = .ok (after, report)) :
    Sampled { l with store := l.store.start input.now l.settings.loopHz } input.files after.store after.stability ∧
      ∃ timeout, timeoutOf l.settings.peripheralTimeoutMs = .ok timeout ∧
        report.status.errorCodes = FaultInputs.faults
          ⟨input.power, input.powerAge, after.store.cpuTemperature, after.store.powerStable⟩ l.settings.thresholds
          timeout := by
  unfold cycle at ended
  extract_lets woken isNewSet entered isStale lines primitive starts executor measured dt output motor store acted
    at ended
  have followed : entered = _ := woken.accept_eq input.inbound
  clear_value entered
  subst followed
  obtain ⟨sampledStore, stability, readings, same⟩ := acted.sampled input.files
  rcases sampling : acted.sample input.files with ⟨read, lines⟩
  rw [sampling] at ended same
  subst same
  cases judged : timeoutOf l.settings.peripheralTimeoutMs with
  | error e =>
    have faulty : faultsOf { acted with store := sampledStore, stability := stability } input = .error e :=
      congrArg (· >>= _) judged
    simp only [faulty] at ended
    contradiction
  | ok timeout =>
    have faulty : faultsOf { acted with store := sampledStore, stability := stability } input = .ok _ :=
      congrArg (· >>= _) judged
    simp only [faulty, CycleStore.finish] at ended
    cases counted : addUInt64 sampledStore.cycles 1 with
    | error e =>
      simp only [counted] at ended
      contradiction
    | ok cycles =>
      simp only [counted] at ended
      cases ended
      exact ⟨⟨readings.temperature, readings.powerStable, readings.stability⟩, timeout, rfl, rfl⟩

theorem toNat_cyclesPerSecond (hz : Float) : (CycleStore.cyclesPerSecond hz).toNat = cyclesInSecond hz := by
  unfold CycleStore.cyclesPerSecond cyclesInSecond
  generalize (Double.round hz).toUInt64 = n
  change (if 1 ≤ n then n else 1).toNat = _
  split
  · next some => exact (Nat.max_eq_right (UInt64.le_iff_toNat_le.mp some)).symm
  · next none => exact (Nat.max_eq_left (Nat.le_of_not_le fun some => none (UInt64.le_iff_toNat_le.mpr some))).symm

theorem isSecondCycle_start (s : CycleStore) (now : Instant) (hz : Float) :
    (s.start now hz).isSecondCycle = decide (s.cycles.toNat % cyclesInSecond hz = 0) := by
  refine decide_eq_decide.mpr ?_
  rw [← UInt64.toNat_inj, UInt64.toNat_mod, toNat_cyclesPerSecond]
  rfl

end ControlLoop

/-- A loop is opened and runs through some cycles up to one with this report. -/
def RunsTo (robot : RobotSettings) (settings : LoopSettings) (files : String → Option FileNode) (start : Instant)
    (inputs : List CycleInput) (input : CycleInput) (report : CycleReport) : Prop :=
  ∃ first lines reports last, ControlLoop.new robot settings files start = .ok (first, lines) ∧
    Driven first (inputs ++ [input]) (reports ++ [report]) last

/-- What ties a loop to what the cycles so far have read of the computer. -/
structure KeepsReadings (settings : LoopSettings) (files : String → Option FileNode) (inputs : List CycleInput)
    (l : ControlLoop) : Prop where
  temperature : l.store.cpuTemperature = latestTemperature settings (secondCycles settings inputs)
  powerStable : l.store.powerStable = latestStability settings files (secondCycles settings inputs)
  stability : l.stability = monitorAfter settings files (secondCycles settings inputs)

section Runs
variable {robot : RobotSettings} {settings : LoopSettings} {files : String → Option FileNode} {start : Instant}

theorem KeepsReadings.opened (opened : ControlLoop.new robot settings files start = .ok (first, lines)) :
    KeepsReadings settings files [] first := by
  unfold ControlLoop.new at opened
  cases time : ControlLoop.timeoutOf settings.packetTimeoutMs with
  | error e =>
    simp only [time] at opened
    contradiction
  | ok timeout =>
    simp only [time] at opened
    cases opened
    constructor <;> rfl

theorem KeepsReadings.next (keeps : KeepsReadings settings files inputs l) (same : l.settings = settings)
    (cycles : l.store.cycles.toNat = inputs.length) (ended : l.cycle input = .ok (after, report)) :
    KeepsReadings settings files (inputs ++ [input]) after := by
  obtain ⟨readings, -⟩ := ControlLoop.sampled_of_cycle ended
  obtain ⟨temperature, powerStable, stability⟩ := readings
  rw [ControlLoop.isSecondCycle_start, cycles, same] at temperature powerStable stability
  have split := secondCycles_concat settings inputs input
  by_cases second : inputs.length % cyclesInSecond settings.loopHz = 0
  · rw [if_pos second] at split
    rw [if_pos (decide_eq_true second)] at temperature powerStable stability
    constructor
    · rw [temperature, split, latestTemperature_concat]
    · rw [powerStable, split, latestStability_concat, ← keeps.stability]
    · rw [stability, split, monitorAfter_concat, ← keeps.stability]
  · -- Between two full seconds the loop holds what it held, and the latest cycle to read anything is the same one.
    rw [if_neg second, List.append_nil] at split
    rw [if_neg (by rwa [decide_eq_true_iff])] at temperature powerStable stability
    constructor <;> rw [split]
    · exact temperature.trans keeps.temperature
    · exact powerStable.trans keeps.powerStable
    · exact stability.trans keeps.stability

theorem Driven.keepsReadings (opened : ControlLoop.new robot settings files start = .ok (first, lines))
    (driven : Driven first inputs reports l) : KeepsReadings settings files inputs l := by
  obtain ⟨timeout, fresh⟩ := ControlLoop.exists_fresh opened
  induction driven with
  | opened => exact .opened opened
  | next earlier ended ih =>
    exact ih.next (earlier.settings.trans fresh.settings) (earlier.follows fresh).cycles ended

theorem RunsTo.judges (ran : RunsTo robot settings files start inputs input report) :
    ∃ timeout, ControlLoop.timeoutOf settings.peripheralTimeoutMs = .ok timeout ∧
      Judges settings.thresholds timeout (latestReadings settings files inputs input) report.status.errorCodes := by
  obtain ⟨first, lines, reports, last, opened, driven⟩ := ran
  obtain ⟨packetTimeout, fresh⟩ := ControlLoop.exists_fresh opened
  obtain ⟨l, earlier, ended⟩ := driven.last_cycle
  have keeps := driven.keepsReadings opened
  obtain ⟨-, timeout, time, codes⟩ := ControlLoop.sampled_of_cycle ended
  rw [earlier.settings, fresh.settings] at time codes
  refine ⟨timeout, time, ?_⟩
  rw [codes, keeps.temperature, keeps.powerStable]
  exact FaultInputs.judges_faults ..

/-- The codes of a status are those that the readings call for, whatever was judged before: a list in ascending order
with the code of each condition that holds of the board's status in this cycle, its age, and what the last cycle on a
full second has read. -/
theorem codes_of_readings (ran : RunsTo robot settings files start inputs input report) :
    (∃ timeout, ControlLoop.timeoutOf settings.peripheralTimeoutMs = .ok timeout ∧
      Judges settings.thresholds timeout (latestReadings settings files inputs input) report.status.errorCodes) ∧
    ∀ robot' settings' files' start' inputs' input' report',
      RunsTo robot' settings' files' start' inputs' input' report' →
      settings'.thresholds = settings.thresholds → settings'.peripheralTimeoutMs = settings.peripheralTimeoutMs →
      latestReadings settings' files' inputs' input' = latestReadings settings files inputs input →
      report'.status.errorCodes = report.status.errorCodes := by
  obtain ⟨timeout, time, judges⟩ := ran.judges
  refine ⟨⟨timeout, time, judges⟩, ?_⟩
  intro robot' settings' files' start' inputs' input' report' ran' thresholds timeouts readings
  obtain ⟨timeout', time', judges'⟩ := ran'.judges
  rw [thresholds, readings] at judges'
  rw [timeouts] at time'
  cases time.symm.trans time'
  exact judges'.eq judges

end Runs

/-- The board is heard with an empty battery. -/
def CycleInput.flat : CycleInput :=
  { CycleInput.quiet 0 with powerAge := some 0 }

/-- A board that is heard no more is all that is left of an empty battery, as if it had never been heard. -/
theorem codes_of_silence : ∃ early late alone,
    RunsTo .seventh .secondly (fun _ => none) 0 [] .flat early ∧ .lowBattery ∈ early.status.errorCodes ∧
      RunsTo .seventh .secondly (fun _ => none) 0 [.flat] (.quiet nanosPerSecond) late ∧
      RunsTo .seventh .secondly (fun _ => none) 0 [] (.quiet nanosPerSecond) alone ∧
      .peripheralDisconnected ∈ late.status.errorCodes ∧ .lowBattery ∉ late.status.errorCodes ∧
      alone.status.errorCodes = late.status.errorCodes := by
  have time : ControlLoop.timeoutOf LoopSettings.secondly.packetTimeoutMs = _ := ControlLoop.timeoutOf_second
  obtain ⟨first, lines, opened, fresh⟩ := ControlLoop.new_ok .seventh (fun _ => none) 0 time
  have timeout : ControlLoop.timeoutOf first.settings.peripheralTimeoutMs = .ok nanosPerSecond := by
    rw [fresh.settings]
    exact ControlLoop.timeoutOf_second
  obtain ⟨middle, early, ended⟩ := first.cycle_ok .flat timeout (by rw [fresh.cycles]; decide)
  have cycled := ControlLoop.cycled ended
  obtain ⟨last, late, lateEnded⟩ := middle.cycle_ok (.quiet nanosPerSecond) (by rwa [cycled.settings])
    (by rw [cycled.cycles, fresh.cycles]; decide)
  obtain ⟨other, alone, aloneEnded⟩ := first.cycle_ok (.quiet nanosPerSecond) timeout (by rw [fresh.cycles]; decide)
  have ranEarly : RunsTo .seventh .secondly (fun _ => none) 0 [] .flat early :=
    ⟨first, lines, [], middle, opened, .next .opened ended⟩
  have ranLate : RunsTo .seventh .secondly (fun _ => none) 0 [.flat] (.quiet nanosPerSecond) late :=
    ⟨first, lines, [early], last, opened, .next (.next .opened ended) lateEnded⟩
  have ranAlone : RunsTo .seventh .secondly (fun _ => none) 0 [] (.quiet nanosPerSecond) alone :=
    ⟨first, lines, [], other, opened, .next .opened aloneEnded⟩
  obtain ⟨⟨t, earlyTime, judgesEarly⟩, -⟩ := codes_of_readings ranEarly
  obtain ⟨⟨u, lateTime, judgesLate⟩, same⟩ := codes_of_readings ranLate
  cases ControlLoop.timeoutOf_second.symm.trans earlyTime
  have gone : .peripheralDisconnected ∈ late.status.errorCodes := judgesLate.peripheralDisconnected_iff.mpr nofun
  have heard : .peripheralDisconnected ∉ early.status.errorCodes := fun disconnected =>
    absurd (judgesEarly.peripheralDisconnected_iff.mp disconnected 0 rfl) (Nat.not_lt_zero _)
  refine ⟨early, late, alone, ranEarly, ?_, ranLate, ranAlone, gone, (judgesLate.disconnected gone).1, ?_⟩
  · exact (judgesEarly.lowBattery_iff heard).mpr (by decide)
  · exact same _ _ _ _ _ _ _ ranAlone rfl rfl (by decide)

end Onboard
