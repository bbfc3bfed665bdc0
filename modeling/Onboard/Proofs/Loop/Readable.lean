import Onboard.Power.Frame
import Onboard.Proofs.Loop.Finite
import Onboard.Proofs.Loop.Numbers
import Onboard.Proofs.Wire.Control
import Onboard.Proofs.Wire.Status

/-! Which statuses of a run a receiver can read. Most numbers of a status are finite by their making. Three kinds are
taken over as they come, without a check: the readings of the power board, the temperature of the processor and the
velocity that the motors are asked for. -/

namespace Onboard

/-- Seconds since the epoch, as a clock tells them. -/
def IsClock (seconds : Float) : Prop :=
  ∃ d < Duration.limit, seconds = Duration.toSeconds d

theorem IsClock.isFinite (clock : IsClock seconds) : seconds.isFinite = true := by
  obtain ⟨d, bound, rfl⟩ := clock
  exact Duration.isFinite_toSeconds bound

/-- Clocks tell what a clock can hold, and the motors do what they are asked. -/
structure CycleInput.IsLive (i : CycleInput) : Prop where
  now : i.now < Duration.limit
  networkPoll : i.times.networkPoll < Duration.limit
  executorStart : i.times.executorStart < Duration.limit
  executorStep : i.times.executorStep < Duration.limit
  powerPoll : i.times.powerPoll < Duration.limit
  motorPoll : i.times.motorPoll < Duration.limit
  motors : i.motors = .ideal

theorem CycleInput.IsLive.inputOf {i : CycleInput} (live : i.IsLive) (p : NetworkPoll) :
    (NetworkedLoop.inputOf i p).IsLive :=
  ⟨live.now, live.networkPoll, live.executorStart, live.executorStep, live.powerPoll, live.motorPoll, live.motors⟩

/-- Sets come off the wire. The board's readings and the files may be anything. -/
def NetworkedEvent.IsLive : NetworkedEvent → Prop
  | .arrival _ set _ time => set.IsRead ∧ IsClock time
  | .cycle input time _ => input.IsLive ∧ IsClock time

/-- What a status takes over unchecked. -/
def RobotStatus.takesFinite (s : RobotStatus) : Bool :=
  s.power.isFinite && s.motor.velocity.isFinite && s.cpuTemperature.isFinite

/-- Whether a cycle met with finite numbers alone, in the board's readings, the processor's temperature and the
velocity that its executor asks for. -/
def CycleReport.isFinite (r : CycleReport) : Bool :=
  r.status.power.isFinite && r.output.motor.velocity.isFinite && r.status.cpuTemperature.isFinite

structure InboundSet.Sound (s : InboundSet) : Prop where
  isRead : s.set.IsRead
  receivedTime : s.receivedTime.isFinite = true
  lossPercentage : s.lossPercentage.isFinite = true

structure RoundTripRecord.Sound (r : RoundTripRecord) : Prop where
  aiSent : r.aiSent.isFinite = true
  robotReceived : r.robotReceived.isFinite = true

/-- The numbers that the robot makes itself. -/
structure RobotStatus.Sound (s : RobotStatus) : Prop where
  timeSent : s.timeSent.isFinite = true
  cycleTimes : s.cycleTimes.isFinite = true
  msSincePrimitive : s.network.msSincePrimitive.isFinite = true
  lossPercentage : s.network.lossPercentage.isFinite = true
  dribbler : s.motor.dribbler.isFinite = true
  msSinceKicker : s.msSinceKicker.isFinite = true
  msSinceChipper : s.msSinceChipper.isFinite = true

structure NetworkedLoop.Sound (n : NetworkedLoop) : Prop where
  slots : ∀ x ∈ n.network.sources, ∀ t, x.slot = some t → t.Sound
  latest : ∀ t, n.network.latest = some t → t.Sound
  records : ∀ r ∈ n.network.trips.records, r.Sound
  currentSet : ∀ s, n.loop.currentSet = some s → s.IsRead
  executor : n.loop.executor.primitive.dribbler.isFinite = true
  status : n.loop.status.Sound

theorem InboundSet.Sound.recordOf {s : InboundSet} (sound : s.Sound) : (NetworkService.recordOf s).Sound where
  aiSent := sound.isRead.parts.1
  robotReceived := sound.receivedTime

theorem RobotStatus.Sound.isFinite {s : RobotStatus} (sound : s.Sound)
    (trip : s.network.roundTrip.all RoundTrip.isFinite = true) : s.isFinite = s.takesFinite := by
  simp only [RobotStatus.isFinite, takesFinite, NetworkStatus.isFinite, MotorStatus.isFinite, trip, sound.timeSent,
    sound.cycleTimes, sound.msSincePrimitive, sound.lossPercentage, sound.dribbler, sound.msSinceKicker,
    sound.msSinceChipper, Bool.true_and, Bool.and_true]

namespace NetworkedLoop.Sound
variable {n : NetworkedLoop}

theorem arrived {set : PrimitiveSet} (sound : n.Sound) (isRead : set.IsRead) (clock : IsClock time) (source : Nat)
    (now : Instant) : Sound { n with network := n.network.deliver source set now time } where
  slots := NetworkService.slots_deliver sound.slots fun _ _ estimate =>
    ⟨isRead, clock.isFinite, LossWindow.isFinite_percentage estimate⟩
  latest := sound.latest
  records := sound.records
  currentSet := sound.currentSet
  executor := sound.executor
  status := sound.status

theorem take (sound : n.Sound) :
    (∀ t, n.network.take.latest = some t → t.Sound) ∧ ∀ r ∈ n.network.take.trips.records, r.Sound := by
  rcases n.network.take_cases with kept | ⟨inbound, newest, -, taken⟩
  · rw [kept]
    exact ⟨sound.latest, sound.records⟩
  · obtain ⟨x, member, slot⟩ := List.mem_map.mp (followed_mem newest)
    have new := sound.slots x member inbound slot
    rw [taken]
    refine ⟨fun t same => Option.some.inj same ▸ new, fun r member => ?_⟩
    rcases List.mem_append.mp ((RoundTrips.record_suffix ..).subset member) with old | last
    · exact sound.records r old
    · exact List.mem_singleton.mp last ▸ new.recordOf

/-- A status that is polled keeps what it takes over, and gets numbers that are finite. -/
theorem polled (sound : n.Sound) (clock : IsClock time)
    (polled : NetworkService.Polled n.network n.loop.status time p) :
    p.status.Sound ∧ p.status.network.roundTrip.all RoundTrip.isFinite = true ∧
      p.status.takesFinite = n.loop.status.takesFinite := by
  obtain ⟨latest, records⟩ := sound.take
  have status := sound.status
  refine ⟨?_, ?_, ?_⟩
  · have timeSent : (if p.isDue then time else n.loop.status.timeSent).isFinite = true := by
      split
      · exact clock.isFinite
      · exact status.timeSent
    rw [polled.status]
    cases last : n.network.take.latest with
    | none =>
      exact ⟨timeSent, status.cycleTimes, status.msSincePrimitive, status.lossPercentage, status.dribbler,
        status.msSinceKicker, status.msSinceChipper⟩
    | some t =>
      exact ⟨timeSent, status.cycleTimes, status.msSincePrimitive, (latest t last).lossPercentage, status.dribbler,
        status.msSinceKicker, status.msSinceChipper⟩
  · rw [polled.roundTrip]
    split
    · cases resolved : (n.network.take.trips.resolve n.loop.status.lastHandled time).1 with
      | none => rfl
      | some trip =>
        obtain ⟨r, member, -, rfl⟩ := RoundTrips.resolve_eq_some resolved
        simp [RoundTrip.isFinite, (records r member).aiSent, (records r member).robotReceived, clock.isFinite]
    · rfl
  · rw [polled.status]
    cases n.network.take.latest <;> rfl

theorem isSome_read (sound : n.Sound) (clock : IsClock time)
    (polled : NetworkService.Polled n.network n.loop.status time p) :
    (Wire.read? (Wire.write p.status) : Option RobotStatus).isSome = n.loop.status.takesFinite := by
  obtain ⟨status, trip, same⟩ := sound.polled clock polled
  rw [isSome_read_status, status.isFinite trip, same]

end NetworkedLoop.Sound

namespace ControlLoop
variable {l : ControlLoop}

theorem isFinite_prescribed (currentSet : ∀ s, l.currentSet = some s → s.IsRead) (isStale : Bool) :
    (l.prescribed isStale).dribbler.isFinite = true := by
  have stop : Primitive.stop.dribbler.isFinite = true := by decide
  unfold prescribed
  split
  · next s current =>
    cases found : s.primitiveFor l.robotId with
    | none => exact stop
    | some p => exact (currentSet s current).isFinite_dribbler found
  · exact stop

theorem isFinite_timesOf (l : ControlLoop) {input : CycleInput} (live : input.IsLive) (started : Bool) :
    (l.timesOf input started).isFinite = true := by
  have start : (if started then input.times.executorStart else 0) < Duration.limit := by
    split
    · exact live.executorStart
    · decide
  have iteration : (l.store.lastStart.map input.now.since).getD 0 < Duration.limit := by
    cases l.store.lastStart with
    | none => exact Nat.zero_lt_of_lt live.now
    | some last => exact (input.now.since_le last).trans_lt live.now
  simp only [CycleTimes.isFinite, timesOf, Duration.isFinite_toMs, live.networkPoll, start, live.executorStep,
    live.powerPoll, live.motorPoll, iteration, Bool.and_self]

namespace Cycled

theorem isRead (cycled : Cycled l input after report) (current : ∀ s, l.currentSet = some s → s.IsRead)
    (inbound : ∀ i, input.inbound = some i → i.set.IsRead) : ∀ s, after.currentSet = some s → s.IsRead := by
  intro s same
  rw [cycled.currentSet] at same
  cases taken : l.accepted input.inbound with
  | none =>
    rw [taken] at same
    exact current s same
  | some i =>
    rw [taken] at same
    cases same
    exact inbound i (Option.filter_eq_some_iff.mp taken).1

theorem isFinite_executor (cycled : Cycled l input after report)
    (before : l.executor.primitive.dribbler.isFinite = true)
    (current : ∀ s, after.currentSet = some s → s.IsRead) : after.executor.primitive.dribbler.isFinite = true := by
  rw [cycled.executor]
  cases started : report.started with
  | none => exact before
  | some p =>
    rw [cycled.eq_of_started started]
    exact isFinite_prescribed current _

theorem motor_eq (cycled : Cycled l input after report) (live : input.IsLive) :
    after.status.motor = .ideal report.output.motor := by
  rw [cycled.motor, live.motors]

theorem sound (cycled : Cycled l input after report) (live : input.IsLive) (polled : input.polled.Sound)
    (executor : after.executor.primitive.dribbler.isFinite = true) : after.status.Sound := by
  have dribbler : report.output.motor.dribbler.isFinite = true := by
    rw [cycled.output, Executor.dribbler_step]
    exact executor
  have age : (after.staleness.ageMs input.now).isFinite = true :=
    Duration.isFinite_toMs ((input.now.since_le _).trans_lt live.now)
  constructor
  case timeSent => exact cycled.timeSent ▸ polled.timeSent
  case cycleTimes => exact cycled.cycleTimes ▸ l.isFinite_timesOf live _
  case msSincePrimitive => exact cycled.network ▸ age
  case lossPercentage => exact cycled.network ▸ polled.lossPercentage
  case dribbler => exact cycled.motor_eq live ▸ dribbler
  case msSinceKicker => exact cycled.msSinceKicker ▸ FireTimes.isFinite_msSince _ live.now
  case msSinceChipper => exact cycled.msSinceChipper ▸ FireTimes.isFinite_msSince _ live.now

theorem takesFinite (cycled : Cycled l input after report) (live : input.IsLive) :
    after.status.takesFinite = report.isFinite := by
  rw [RobotStatus.takesFinite, CycleReport.isFinite, cycled.status, cycled.motor_eq live]
  rfl

end Cycled

end ControlLoop

namespace NetworkedLoop.Sound
variable {n : NetworkedLoop}

theorem cycled (sound : n.Sound) (clock : IsClock time) (live : input.IsLive)
    (polled : NetworkService.Polled n.network n.loop.status time p)
    (cycled : ControlLoop.Cycled n.loop (NetworkedLoop.inputOf input p) l report) : Sound ⟨l, p.service⟩ := by
  obtain ⟨latest, records⟩ := sound.take
  have current := cycled.isRead sound.currentSet fun i given => (latest i (polled.inbound.symm.trans given)).isRead
  have executor := cycled.isFinite_executor sound.executor current
  exact {
    slots := by
      rw [polled.sources, NetworkService.sources_take]
      exact sound.slots
    latest := by
      rw [polled.latest]
      exact latest
    records := by
      rw [polled.trips]
      exact fun r member => records r ((RoundTrips.settled_suffix ..).subset member)
    currentSet := current
    executor := executor
    status := cycled.sound (live.inputOf p) (sound.polled clock polled).1 executor }

theorem opened {settings : LoopSettings} (opened : NetworkedLoop.new robot settings count files start = .ok n) :
    n.Sound ∧ n.loop.status.takesFinite = true := by
  obtain ⟨made, lines, begun⟩ := new_eq_ok opened
  have network := NetworkService.fresh_onSources made
  obtain ⟨timeout, loop⟩ := ControlLoop.exists_fresh begun
  have zero : (0.0 : Float).isFinite = true := by decide
  have times : CycleTimes.zero.isFinite = true := by decide
  have initial : RobotStatus.initial.takesFinite = true := by decide
  have status : n.loop.status.Sound := by
    rw [loop.status]
    exact ⟨zero, times, zero, zero, zero, zero, zero⟩
  refine ⟨?_, by rw [loop.status]; exact initial⟩
  exact {
    slots := network.slots InboundSet.Sound
    latest := fun t last => nomatch network.latest.symm.trans last
    records := by
      rw [network.records]
      exact nofun
    currentSet := fun s current => nomatch loop.currentSet.symm.trans current
    executor := by
      rw [loop.executor]
      exact zero
    status := status }

/-- It depends on what the cycle before it took over whether a poll's status can be read, and for the first poll on
what the loop begins with. -/
theorem run {m : NetworkedLoop} {cycle : NetworkedCycle} (sound : n.Sound) (live : ∀ event ∈ events, event.IsLive)
    (ran : n.run events = .ok (m, before ++ cycle :: after)) :
    (Wire.read? (Wire.write cycle.poll.status) : Option RobotStatus).isSome =
      (before.getLast?.map fun last => last.report.isFinite).getD n.loop.status.takesFinite := by
  induction events generalizing n before with
  | nil =>
    have nothing : [] = before ++ cycle :: after := congrArg Prod.snd (Except.ok.inj ran)
    simp at nothing
  | cons event rest ih =>
    obtain ⟨next, first, later, stepped, rest, whole⟩ := run_cons_iff.mp ran
    rw [List.forall_mem_cons] at live
    obtain ⟨alive, others⟩ := live
    cases event with
    | arrival source set now time =>
      cases stepped
      cases whole
      have read := ih (sound.arrived alive.1 alive.2 source now) others rest
      exact read
    | cycle input time send =>
      obtain ⟨p, l, report, polled, cycled, rfl, rfl⟩ := step_cycle_eq_ok stepped
      cases before with
      | nil =>
        cases whole
        exact sound.isSome_read alive.2 polled
      | cons head before =>
        cases whole
        have read := ih (sound.cycled alive.2 alive.1 polled cycled) others rest
        rw [cycled.takesFinite (alive.1.inputOf p)] at read
        rw [read, List.getLast?_cons]
        cases before.getLast? <;> rfl

end NetworkedLoop.Sound

/-- A receiver can read the status of a poll, if and only if the cycle before it met with finite numbers alone. -/
theorem statuses_readable_iff {settings : LoopSettings} {cycle : NetworkedCycle}
    (opened : NetworkedLoop.new robot settings count files start = .ok first)
    (live : ∀ event ∈ events, event.IsLive) (ran : first.run events = .ok (last, before ++ cycle :: after)) :
    (Wire.read? (Wire.write cycle.poll.status) : Option RobotStatus).isSome = true ↔
      ∀ c, before.getLast? = some c → c.report.isFinite = true := by
  obtain ⟨sound, initial⟩ := NetworkedLoop.Sound.opened opened
  rw [sound.run live ran, initial]
  cases before.getLast? with
  | none => simp
  | some c => simp

theorem isClock_zero : IsClock 0.0 :=
  ⟨0, by decide, by decide⟩

/-- A cycle in which nothing happens and the board has said so much. -/
def CycleInput.reading (power : PowerStatus) : CycleInput :=
  { CycleInput.quiet 0 with power := power }

theorem CycleInput.isLive_reading (power : PowerStatus) : (reading power).IsLive := by
  have zero : 0 < Duration.limit := by decide
  exact ⟨zero, zero, zero, zero, zero, zero, rfl⟩

def NetworkedEvent.reading (power : PowerStatus) : NetworkedEvent :=
  .cycle (.reading power) 0.0 fun _ => .ok ()

theorem NetworkedEvent.isLive_reading (power : PowerStatus) : (reading power).IsLive :=
  ⟨CycleInput.isLive_reading power, isClock_zero⟩

/-- The board says so much in two cycles. -/
def readings (power : PowerStatus) : List NetworkedEvent :=
  [.reading power, .reading power]

theorem isLive_readings (power : PowerStatus) : ∀ event ∈ readings power, event.IsLive :=
  have live := NetworkedEvent.isLive_reading power
  List.forall_mem_cons.mpr ⟨live, List.forall_mem_singleton.mpr live⟩

def PowerStatus.charged : PowerStatus :=
  ⟨⟨0x41BC0000⟩, ⟨0x43480000⟩, ⟨0x3F800000⟩, true, 1⟩

/-- The status that is sent after a cycle with finite readings has them and can be read. -/
theorem charged_status_readable :
    ∃ first n c d, NetworkedLoop.new .seventh .secondly 1 (fun _ => none) 0 = .ok first ∧
      first.run (readings .charged) = .ok (n, [c] ++ d :: []) ∧ c.report.isFinite = true ∧
      d.poll.status.power = .charged ∧ (Wire.read? (Wire.write d.poll.status) : Option RobotStatus).isSome = true := by
  have shown : (NetworkedLoop.seventhRun? (readings .charged)).map (fun run =>
      run.2.map fun c => (c.report.isFinite, c.poll.status.power)) = some [(true, .initial), (true, .charged)] := by
    decide +kernel
  obtain ⟨⟨n, cycles⟩, found, shown⟩ := Option.map_eq_some_iff.mp shown
  obtain ⟨c, cycles, rfl, earlier, shown⟩ := List.map_eq_cons_iff.mp shown
  obtain ⟨d, cycles, rfl, later, shown⟩ := List.map_eq_cons_iff.mp shown
  cases List.map_eq_nil_iff.mp shown
  obtain ⟨first, opened, ran⟩ := exists_seventhRun found
  have ran : first.run (readings .charged) = .ok (n, [c] ++ d :: []) := ran
  have finite : c.report.isFinite = true := congrArg Prod.fst earlier
  have readable := statuses_readable_iff opened (isLive_readings .charged) ran
  refine ⟨first, n, c, d, opened, ran, finite, congrArg Prod.snd later, readable.mpr fun report given => ?_⟩
  cases given
  exact finite

/-- A frame whose checksum is right and whose battery voltage is not a number. -/
def hollowFrame : Bytes :=
  [0xA5, 15, 0, 0, 0xC0, 0x7F, 0, 0, 0, 0, 0, 0, 0, 0, 1, 0, 0, 0xD0, 1]

def PowerStatus.hollow : PowerStatus :=
  ⟨⟨0x7FC00000⟩, .zero, .zero, false, 1⟩

/-- The status that is sent after such a frame cannot be read. -/
theorem status_unreadable :
    ∃ power first n c d, PowerStatus.ofFrame hollowFrame = .ok power ∧
      NetworkedLoop.new .seventh .secondly 1 (fun _ => none) 0 = .ok first ∧
      first.run [.reading power, .reading power] = .ok (n, [c, d]) ∧ d.poll.isDue = true ∧
      (Wire.read? (Wire.write d.poll.status) : Option RobotStatus) = none := by
  have accepted : PowerStatus.ofFrame hollowFrame = .ok .hollow := by
    decide +kernel
  have shown : (NetworkedLoop.seventhRun? (readings .hollow)).map (fun run =>
      run.2.map fun c => (c.report.isFinite, c.poll.isDue)) = some [(false, true), (false, true)] := by
    decide +kernel
  obtain ⟨⟨n, cycles⟩, found, shown⟩ := Option.map_eq_some_iff.mp shown
  obtain ⟨c, cycles, rfl, earlier, shown⟩ := List.map_eq_cons_iff.mp shown
  obtain ⟨d, cycles, rfl, later, shown⟩ := List.map_eq_cons_iff.mp shown
  cases List.map_eq_nil_iff.mp shown
  obtain ⟨first, opened, ran⟩ := exists_seventhRun found
  have ran : first.run (readings .hollow) = .ok (n, [c] ++ d :: []) := ran
  have unsound : c.report.isFinite = false := congrArg Prod.fst earlier
  have read := (NetworkedLoop.Sound.opened opened).1.run (isLive_readings .hollow) ran
  change _ = c.report.isFinite at read
  rw [unsound] at read
  exact ⟨.hollow, first, n, c, d, accepted, opened, ran, congrArg Prod.snd later,
    Option.isNone_iff_eq_none.mp (Option.isSome_eq_false_iff.mp read)⟩

end Onboard
