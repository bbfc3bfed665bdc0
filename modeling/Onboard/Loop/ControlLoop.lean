import Onboard.Host.Sensors
import Onboard.Loop.Cycle
import Onboard.Loop.Executor
import Onboard.Loop.Pacing
import Onboard.Loop.Staleness
import Onboard.Network.Service

/-!
The control loop. Each cycle it takes the newest primitive set from the network, follows the robot's primitive in it
or stops if the set has become too old, hands the executor's demands to the motors and the power board, and assembles
the status that the next cycle's poll may send.
-/

namespace Onboard

structure PartTimes where
  networkPoll : Duration
  executorStart : Duration
  executorStep : Duration
  powerPoll : Duration
  motorPoll : Duration
  deriving DecidableEq

def PartTimes.zero : PartTimes := ⟨0, 0, 0, 0, 0⟩

structure CycleInput where
  now : Instant
  /-- The loop's status as the network's poll leaves it. -/
  polled : RobotStatus
  inbound : Option InboundSet
  motors : MotorDemand → MotorStatus
  /-- The board's latest status and its age. -/
  power : PowerStatus
  powerAge : Option Duration
  files : String → Option FileNode
  times : PartTimes

structure CycleReport where
  started : Option Primitive
  /-- The velocity and the seconds of the executor's step. -/
  measured : Velocity
  dt : Float
  output : ExecutorOutput
  command : PulseCommand
  status : RobotStatus
  log : List LogLine

structure ControlLoop where
  robotId : UInt32
  settings : LoopSettings
  calibration : KickCalibration
  executor : Executor
  store : CycleStore
  /-- Assembled by the last cycle. -/
  status : RobotStatus
  currentSet : Option PrimitiveSet
  staleness : Staleness
  wasStale : Bool
  fireTimes : FireTimes
  stability : StabilityMonitor
  firmwareVersion : String
  dateFlashed : String

namespace ControlLoop

def label (node : Option FileNode) : String :=
  (Host.firstLineOf (FileNode.text? node)).getD "unknown"

def openingLine (robot : RobotSettings) (settings : LoopSettings) (firmware date : String) : LogLine :=
  .info (s!"Thunderloop for robot {robot.robotId} at " ++ Layout.plain.write settings.loopHz ++ " Hz, firmware "
    ++ firmware ++ " flashed " ++ date)

def timeoutOf (ms : Float) : Except Fault Duration :=
  Duration.ofSeconds (ms / 1000.0)

def new (robot : RobotSettings) (settings : LoopSettings) (files : String → Option FileNode) (start : Instant) :
    Except Fault (ControlLoop × List LogLine) := do
  let firmware := label (files settings.firmwarePath)
  let date := label (files settings.datePath)
  let timeout ← timeoutOf settings.packetTimeoutMs
  let loop : ControlLoop := {
    robotId := robot.robotId
    settings := settings
    calibration := robot.calibration
    executor := .initial
    store := { CycleStore.initial with powerStable := true }
    status := { RobotStatus.initial with robotId := robot.robotId }
    currentSet := none
    staleness := .startingAt timeout start
    wasStale := true
    fireTimes := .never
    stability := .new settings.kernelLogPath (files settings.kernelLogPath)
    firmwareVersion := firmware
    dateFlashed := date }
  return (loop, [openingLine robot settings firmware date])

def accepts (l : ControlLoop) (inbound : InboundSet) : Bool :=
  match l.currentSet with
  | some current => inbound.set.isNewerThan current
  | none => true

def accepted (l : ControlLoop) (inbound : Option InboundSet) : Option InboundSet :=
  inbound.filter l.accepts

def accept (l : ControlLoop) (inbound : Option InboundSet) : ControlLoop :=
  match l.accepted inbound with
  | some i => { l with staleness := l.staleness.accept i.receivedAt, currentSet := some i.set }
  | none => l

/-- What the robot has to do: what the current set says of it, or stop. -/
def prescribed (l : ControlLoop) (isStale : Bool) : Primitive :=
  match isStale, l.currentSet with
  | false, some set => (set.primitiveFor l.robotId).getD .stop
  | _, _ => .stop

def stalenessLines (l : ControlLoop) (isStale : Bool) (now : Instant) : List LogLine :=
  if isStale && !l.wasStale then
    [.warn ("No new primitive for " ++ Layout.fixed 0 (l.staleness.ageMs now) ++ " ms, stopping")]
  else if !isStale && l.wasStale then [.info "Primitives resumed"]
  else []

/-- Readings of the computer that are taken once a second. -/
def sample (l : ControlLoop) (files : String → Option FileNode) : ControlLoop × List LogLine :=
  if l.store.isSecondCycle then
    let temperature := Host.temperature l.settings.temperaturePath (FileNode.text? (files l.settings.temperaturePath))
    let stability := l.stability.check (files l.settings.kernelLogPath)
    ({ l with
        store := { l.store with cpuTemperature := temperature.1, powerStable := stability.1 }
        stability := stability.2.1 },
      temperature.2 ++ stability.2.2)
  else (l, [])

def faultsOf (l : ControlLoop) (i : CycleInput) : Except Fault (List ErrorCode) := do
  let inputs : FaultInputs := ⟨i.power, i.powerAge, l.store.cpuTemperature, l.store.powerStable⟩
  return inputs.faults l.settings.thresholds (← timeoutOf l.settings.peripheralTimeoutMs)

/-- The status of a cycle; what the network filled in is kept. -/
def assemble (l : ControlLoop) (i : CycleInput) (motor : MotorStatus) (primitive : Primitive) (isStale : Bool) :
    RobotStatus :=
  { i.polled with
    robotId := l.robotId
    lastHandled := (l.currentSet.map PrimitiveSet.sequence).getD 0
    cycleTimes := l.store.current.times
    network := { i.polled.network with msSincePrimitive := l.staleness.ageMs i.now }
    power := i.power
    motor := motor
    cpuTemperature := l.store.cpuTemperature.getD 0.0
    msSinceKicker := l.fireTimes.kickerMs i.now
    msSinceChipper := l.fireTimes.chipperMs i.now
    runningStop := primitive = .stop
    timedOut := isStale
    errorCodes := l.store.current.faults
    firmwareVersion := l.firmwareVersion
    dateFlashed := l.dateFlashed }

def startsExecutor (l : ControlLoop) (isNewSet isStale : Bool) : Bool :=
  isNewSet || isStale != l.wasStale || l.store.cycles = 0

def recordParts (r : CycleRecord) (times : PartTimes) (started : Bool) (power : ChickerCommand) : CycleRecord :=
  { r with
    networkPoll := times.networkPoll
    executorStart := if started then times.executorStart else 0
    executorStep := times.executorStep
    powerPoll := times.powerPoll
    motorPoll := times.motorPoll
    power := power }

def cycle (l : ControlLoop) (i : CycleInput) : Except Fault (ControlLoop × CycleReport) := do
  let l := { l with store := l.store.start i.now l.settings.loopHz }
  let isNewSet := (l.accepted i.inbound).isSome
  let l := l.accept i.inbound
  let isStale := l.staleness.isStale i.now
  let lines := l.stalenessLines isStale i.now
  let primitive := l.prescribed isStale
  let starts := l.startsExecutor isNewSet isStale
  let executor := if starts then l.executor.start primitive else l.executor
  let measured := l.store.measuredVelocity
  let dt := 1.0 / l.settings.loopHz
  let output := executor.step measured dt
  let motor := i.motors output.motor
  let l := { l with
    executor := executor
    wasStale := isStale
    fireTimes := l.fireTimes.update output.power i.now
    store := { l.store with
      measuredVelocity := motor.velocity
      current := recordParts l.store.current i.times starts output.power } }
  let (l, sampleLines) := l.sample i.files
  let faults ← l.faultsOf i
  let l := { l with store := { l.store with current := { l.store.current with faults := faults } } }
  let l := { l with status := l.assemble i motor primitive isStale }
  let store ← l.store.finish
  return ({ l with store := store },
    { started := if starts then some primitive else none
      measured := measured
      dt := dt
      output := output
      command := .ofDemand l.calibration output.power
      status := l.status
      log := lines ++ sampleLines })

def beginLine : LogLine := .info "Beginning main loop"

def endLine (l : ControlLoop) : LogLine := .info s!"Main loop ended after {l.store.cycles} cycles"

/-- A timed run: each cycle waits for its deadline at the time it is ready, and gets its input. -/
def runPaced (l : ControlLoop) (p : Pacer) (lines : List LogLine) :
    List (Deadline × (ControlLoop → CycleInput)) → Except Fault (ControlLoop × List LogLine)
  | [] => .ok (l, lines ++ [l.endLine])
  | (ready, input) :: rest => do
    let (p, _, waitLines) ← p.wait ready
    let (l, report) ← l.cycle (input l)
    runPaced l p (lines ++ waitLines ++ report.log) rest

def run (l : ControlLoop) (start : Deadline) (cycles : List (Deadline × (ControlLoop → CycleInput))) :
    Except Fault (ControlLoop × List LogLine) :=
  runPaced l (.startingAt l.settings.loopHz start) [beginLine] cycles

/-- The services are shut down in this order. -/
inductive Shutdown where
  | motors
  | power
  | network
  deriving DecidableEq

def Shutdown.name : Shutdown → String
  | .motors => "motor.make_safe"
  | .power => "power.stop"
  | .network => "network.stop"

def shutdownOrder : List Shutdown := [.motors, .power, .network]

end ControlLoop

end Onboard
