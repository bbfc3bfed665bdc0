import Onboard.Loop.ControlLoop

/-! One cycle of the control loop: what it leaves behind and reports of the sets it follows, and when it comes to
its end. -/

namespace Onboard

theorem addUInt64_eq_ok (added : addUInt64 a b = .ok c) : c.toNat = a.toNat + b.toNat := by
  unfold addUInt64 at added
  split at added
  · next bound =>
    cases added
    rw [UInt64.toNat_add, Nat.mod_eq_of_lt bound]
  · contradiction

theorem addUInt64_eq_error (failed : addUInt64 a b = .error fault) :
    fault = .addOverflow ∧ 0x10000000000000000 ≤ a.toNat + b.toNat := by
  unfold addUInt64 at failed
  split at failed
  · contradiction
  · next large =>
    cases failed
    exact ⟨rfl, Nat.le_of_not_lt large⟩

namespace ControlLoop

/-- The times that a status reports of a cycle; an executor that was not started has taken none. -/
def timesOf (l : ControlLoop) (input : CycleInput) (started : Bool) : CycleTimes :=
  ⟨input.times.networkPoll.toMs, Duration.toMs (if started then input.times.executorStart else 0),
    input.times.executorStep.toMs, input.times.powerPoll.toMs, input.times.motorPoll.toMs,
    Duration.toMs ((l.store.lastStart.map input.now.since).getD 0)⟩

/-- What a cycle does to the loop, apart from its readings of the computer. -/
structure Cycled (l : ControlLoop) (input : CycleInput) (after : ControlLoop) (report : CycleReport) : Prop where
  robotId : after.robotId = l.robotId
  settings : after.settings = l.settings
  currentSet : after.currentSet = (l.accepted input.inbound).elim l.currentSet fun i => some i.set
  staleness : after.staleness = (l.accepted input.inbound).elim l.staleness fun i => l.staleness.accept i.receivedAt
  wasStale : after.wasStale = after.staleness.isStale input.now
  cycles : after.store.cycles.toNat = l.store.cycles.toNat + 1
  started : report.started =
    if (l.accepted input.inbound).isSome || after.wasStale != l.wasStale || l.store.cycles = 0 then
      some (after.prescribed after.wasStale)
    else none
  executor : after.executor = (report.started.map Executor.mk).getD l.executor
  output : report.output = after.executor.step report.measured report.dt
  status : report.status = after.status
  lastHandled : after.status.lastHandled = (after.currentSet.map PrimitiveSet.sequence).getD 0
  timedOut : after.status.timedOut = after.wasStale
  runningStop : after.status.runningStop = decide (after.prescribed after.wasStale = .stop)
  timeSent : after.status.timeSent = input.polled.timeSent
  cycleTimes : after.status.cycleTimes = l.timesOf input report.started.isSome
  network : after.status.network = { input.polled.network with msSincePrimitive := after.staleness.ageMs input.now }
  motor : after.status.motor = input.motors report.output.motor
  power : after.status.power = input.power
  msSinceKicker : after.status.msSinceKicker = after.fireTimes.kickerMs input.now
  msSinceChipper : after.status.msSinceChipper = after.fireTimes.chipperMs input.now

/-- What a cycle asks of the power board, and what it notes of that. -/
structure Asks (l : ControlLoop) (input : CycleInput) (after : ControlLoop) (report : CycleReport) : Prop where
  calibration : after.calibration = l.calibration
  command : report.command = .ofDemand l.calibration report.output.power
  fireTimes : after.fireTimes = l.fireTimes.update report.output.power input.now

theorem accept_eq (l : ControlLoop) (inbound : Option InboundSet) :
    l.accept inbound = { l with
      currentSet := (l.accepted inbound).elim l.currentSet fun i => some i.set
      staleness := (l.accepted inbound).elim l.staleness fun i => l.staleness.accept i.receivedAt } := by
  unfold accept
  cases l.accepted inbound <;> rfl

/-- Readings of the computer leave alone what the loop follows. -/
theorem sample_eq (l : ControlLoop) (files : String → Option FileNode) :
    ∃ store stability, (store.cycles = l.store.cycles ∧ store.current = l.store.current) ∧
      (l.sample files).1 = { l with store := store, stability := stability } := by
  unfold sample
  split
  · refine ⟨_, _, ⟨?_, ?_⟩, rfl⟩ <;> rfl
  · exact ⟨l.store, l.stability, ⟨rfl, rfl⟩, rfl⟩

/-- A cycle comes to its end unless the time allowed to the board is no time or the cycles cannot be counted. -/
theorem cycle_spec (l : ControlLoop) (input : CycleInput) :
    match timeoutOf l.settings.peripheralTimeoutMs, addUInt64 l.store.cycles 1 with
    | .ok _, .ok _ => ∃ after report, l.cycle input = .ok (after, report) ∧ Cycled l input after report ∧
      Asks l input after report
    | .error e, _ | .ok _, .error e => l.cycle input = .error e := by
  unfold cycle
  extract_lets woken isNewSet entered isStale lines primitive starts executor measured dt output motor store acted
  have followed : entered = _ := woken.accept_eq input.inbound
  clear_value entered
  subst followed
  obtain ⟨sampledStore, stability, kept, sampled⟩ := acted.sample_eq input.files
  rcases sampling : acted.sample input.files with ⟨read, readings⟩
  rw [sampling] at sampled
  subst sampled
  have counts : sampledStore.cycles = l.store.cycles := kept.1
  cases judged : timeoutOf l.settings.peripheralTimeoutMs with
  | error e =>
    have faulty : faultsOf { acted with store := sampledStore, stability := stability } input = .error e :=
      congrArg (· >>= _) judged
    simp only [faulty]
    rfl
  | ok timeout =>
    have judged : faultsOf { acted with store := sampledStore, stability := stability } input = .ok _ :=
      congrArg (· >>= _) judged
    cases counted : addUInt64 l.store.cycles 1 with
    | error e =>
      rw [← counts] at counted
      simp only [judged, CycleStore.finish, counted]
      rfl
    | ok cycles =>
      have more := addUInt64_eq_ok counted
      rw [← counts] at counted
      simp only [judged, CycleStore.finish, counted]
      refine ⟨_, _, rfl, ?_, ⟨rfl, rfl, rfl⟩⟩
      constructor
      case cycles => exact more
      case cycleTimes =>
        have record : sampledStore.current = recordParts woken.store.current input.times starts output.power := kept.2
        change CycleRecord.times { sampledStore.current with faults := _ } = _
        rw [record]
        change _ = l.timesOf input (if starts then some primitive else none).isSome
        cases restart : starts <;> cases began : l.store.lastStart <;>
          simp [timesOf, recordParts, CycleRecord.times, began, woken, CycleStore.start]
      case executor =>
        change executor = ((if starts then some primitive else none).map Executor.mk).getD l.executor
        cases restart : starts <;> simp only [executor, restart] <;> rfl
      all_goals rfl

theorem cycled_asks (ended : cycle l input = .ok (after, report)) :
    Cycled l input after report ∧ Asks l input after report := by
  have spec := l.cycle_spec input
  split at spec
  · obtain ⟨_, _, same, cycled⟩ := spec
    cases ended.symm.trans same
    exact cycled
  all_goals exact nomatch ended.symm.trans spec

theorem cycled (ended : cycle l input = .ok (after, report)) : Cycled l input after report :=
  (cycled_asks ended).1

theorem asks (ended : cycle l input = .ok (after, report)) : Asks l input after report :=
  (cycled_asks ended).2

/-- The loop takes over just the sets that are to be followed. -/
theorem newer_eq {l : ControlLoop} {current : Option InboundSet}
    (same : l.currentSet = current.map InboundSet.set) (inbound : Option InboundSet) :
    NetworkService.newer current inbound = (l.accepted inbound).or current := by
  cases inbound with
  | none => cases current <;> rfl
  | some i =>
    cases current with
    | none =>
      have accepts : l.accepts i = true := by
        unfold ControlLoop.accepts
        rw [same]
        rfl
      simp only [NetworkService.newer, ControlLoop.accepted, Option.filter_some, accepts, if_true, Option.some_or]
    | some c =>
      have accepts : l.accepts i = i.set.isNewerThan c.set := by
        unfold ControlLoop.accepts
        rw [same]
        rfl
      cases newer : i.set.isNewerThan c.set <;>
        simp [NetworkService.newer, ControlLoop.accepted, Option.filter_some, accepts, newer]

theorem Cycled.currentSet_eq {current : Option InboundSet} (cycled : Cycled l input after report)
    (same : l.currentSet = current.map InboundSet.set) :
    after.currentSet = (NetworkService.newer current input.inbound).map InboundSet.set := by
  rw [cycled.currentSet, newer_eq same, same]
  cases l.accepted input.inbound <;> rfl

/-- Without a start nothing has changed that could have called for one. -/
theorem Cycled.of_started_none (cycled : Cycled l input after report) (calm : report.started = none) :
    after.currentSet = l.currentSet ∧ after.wasStale = l.wasStale ∧ l.store.cycles ≠ 0 := by
  rw [cycled.started] at calm
  split at calm
  · contradiction
  · next same =>
    simp only [Bool.or_eq_true, not_or, bne_iff_ne, ne_eq, Classical.not_not, decide_eq_true_eq] at same
    obtain ⟨⟨kept, stale⟩, later⟩ := same
    refine ⟨?_, stale, later⟩
    rw [cycled.currentSet]
    cases taken : l.accepted input.inbound with
    | none => rfl
    | some s => exact absurd (by rw [taken]; rfl) kept

theorem Cycled.eq_of_started (cycled : Cycled l input after report) (started : report.started = some primitive) :
    primitive = after.prescribed after.wasStale := by
  rw [cycled.started] at started
  split at started
  · exact (Option.some.inj started).symm
  · contradiction

theorem cycle_ok (l : ControlLoop) (input : CycleInput)
    (timeout : timeoutOf l.settings.peripheralTimeoutMs = .ok peripheralTimeout)
    (bound : l.store.cycles.toNat + 1 < 0x10000000000000000) : ∃ after report, l.cycle input = .ok (after, report) := by
  have spec := l.cycle_spec input
  have counted : addUInt64 l.store.cycles 1 = .ok (l.store.cycles + 1) := if_pos bound
  rw [timeout, counted] at spec
  obtain ⟨after, report, ended, -⟩ := spec
  exact ⟨after, report, ended⟩

/-- A loop before its first cycle. -/
structure Fresh (robot : RobotSettings) (settings : LoopSettings) (timeout : Duration) (start : Instant)
    (l : ControlLoop) : Prop where
  robotId : l.robotId = robot.robotId
  settings : l.settings = settings
  executor : l.executor = .initial
  cycles : l.store.cycles = 0
  status : l.status = { RobotStatus.initial with robotId := robot.robotId }
  currentSet : l.currentSet = none
  staleness : l.staleness = .startingAt timeout start
  wasStale : l.wasStale = true

theorem Fresh.lastHandled {settings : LoopSettings} (fresh : Fresh robot settings timeout start l) :
    l.status.lastHandled = 0 := by
  rw [fresh.status]
  rfl

theorem new_ok {settings : LoopSettings} (robot : RobotSettings) (files : String → Option FileNode) (start : Instant)
    (time : timeoutOf settings.packetTimeoutMs = .ok timeout) :
    ∃ l lines, new robot settings files start = .ok (l, lines) ∧ Fresh robot settings timeout start l := by
  unfold new
  rw [time]
  refine ⟨_, _, rfl, ?_⟩
  constructor <;> rfl

theorem fresh {settings : LoopSettings} (time : timeoutOf settings.packetTimeoutMs = .ok timeout)
    (opened : new robot settings files start = .ok (l, lines)) : Fresh robot settings timeout start l := by
  obtain ⟨_, _, same, fresh⟩ := new_ok robot files start time
  cases opened.symm.trans same
  exact fresh

theorem exists_fresh {settings : LoopSettings} (opened : new robot settings files start = .ok (l, lines)) :
    ∃ timeout, Fresh robot settings timeout start l := by
  cases time : timeoutOf settings.packetTimeoutMs with
  | ok timeout => exact ⟨timeout, fresh time opened⟩
  | error e =>
    simp only [new, time] at opened
    contradiction

end ControlLoop

def RobotSettings.seventh : RobotSettings :=
  ⟨7, 0, "", ⟨0.0, 0, 0⟩⟩

/-- Nothing is handed over, measured or read. -/
def CycleInput.quiet (now : Instant) : CycleInput :=
  ⟨now, .initial, none, .ideal, .initial, none, fun _ => none, .zero⟩

theorem ControlLoop.timeoutOf_second : ControlLoop.timeoutOf 1000.0 = .ok nanosPerSecond := by
  rfl

end Onboard
