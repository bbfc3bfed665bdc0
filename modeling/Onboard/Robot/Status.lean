import Onboard.Number.Single
import Onboard.Robot.Motion

/-!
What a robot reports about itself: its status once or more a second, a crash when a fatal signal ends it, and the
short packet for spectators.
-/

namespace Onboard

/-- Readings of the power board; the sequence number counts its frames. -/
structure PowerStatus where
  batteryVoltage : Single
  capacitorVoltage : Single
  currentDraw : Single
  breakbeamTripped : Bool
  sequence : UInt16
  deriving DecidableEq

def PowerStatus.initial : PowerStatus := ⟨.zero, .zero, .zero, false, 0⟩

instance : Inhabited PowerStatus := ⟨.initial⟩

/-- Conditions flagged to the operator, in the order in which a status lists them. -/
inductive ErrorCode where
  | lowBattery
  | highCap
  | highBoardTemp
  | unstablePowerSupply
  | peripheralDisconnected
  deriving DecidableEq, Inhabited

namespace ErrorCode

def all : List ErrorCode :=
  [.lowBattery, .highCap, .highBoardTemp, .unstablePowerSupply, .peripheralDisconnected]

theorem mem_all (e : ErrorCode) : e ∈ all := by
  cases e <;> decide

def rank : ErrorCode → Nat
  | .lowBattery => 0
  | .highCap => 1
  | .highBoardTemp => 2
  | .unstablePowerSupply => 3
  | .peripheralDisconnected => 4

end ErrorCode

/-- One primitive's way from the planner to the robot and back in a status; times are in seconds since the epoch. -/
structure RoundTrip where
  sequence : UInt64
  aiSent : Float
  robotReceived : Float
  statusSent : Float
  deriving DecidableEq, Inhabited

/-- The part of a round trip that both ends are measured on the planner's side of. -/
def RoundTrip.seconds (r : RoundTrip) : Float :=
  r.statusSent - r.aiSent

/-- Milliseconds spent in each part of one cycle of the control loop. -/
structure CycleTimes where
  networkPoll : Float
  executorStart : Float
  executorStep : Float
  powerPoll : Float
  motorPoll : Float
  iteration : Float
  deriving DecidableEq

def CycleTimes.zero : CycleTimes := ⟨0.0, 0.0, 0.0, 0.0, 0.0, 0.0⟩

structure NetworkStatus where
  msSincePrimitive : Float
  lossPercentage : Float
  roundTrip : Option RoundTrip
  deriving DecidableEq

def NetworkStatus.initial : NetworkStatus := ⟨0.0, 0.0, none⟩

structure RobotStatus where
  robotId : UInt32
  lastHandled : UInt64
  timeSent : Float
  cycleTimes : CycleTimes
  network : NetworkStatus
  power : PowerStatus
  motor : MotorStatus
  cpuTemperature : Float
  msSinceKicker : Float
  msSinceChipper : Float
  runningStop : Bool
  timedOut : Bool
  errorCodes : List ErrorCode
  firmwareVersion : String
  dateFlashed : String
  deriving DecidableEq

def RobotStatus.initial : RobotStatus :=
  ⟨0, 0, 0.0, .zero, .initial, .initial, .initial, 0.0, 0.0, 0.0, false, false, [], "", ""⟩

instance : Inhabited RobotStatus := ⟨.initial⟩

def RobotStatus.numbers (s : RobotStatus) : List Float :=
  let t := s.cycleTimes
  let v := s.motor.velocity
  let trip := match s.network.roundTrip with
    | some r => [r.aiSent, r.robotReceived, r.statusSent]
    | none => []
  [s.timeSent, t.networkPoll, t.executorStart, t.executorStep, t.powerPoll, t.motorPoll, t.iteration,
    s.network.msSincePrimitive, s.network.lossPercentage] ++ trip ++
  [v.x, v.y, v.angular, s.motor.dribbler, s.cpuTemperature, s.msSinceKicker, s.msSinceChipper]

/-- Whether comparing a status with itself finds it equal, which a single not-a-number prevents. -/
def RobotStatus.equalsItself (s : RobotStatus) : Bool :=
  !(s.numbers.any Float.isNaN)
    && !([s.power.batteryVoltage, s.power.capacitorVoltage, s.power.currentDraw].any Single.isNaN)

/-- The last words of a robot that a fatal signal ends. -/
structure CrashReport where
  robotId : UInt32
  stackDump : String
  exitSignal : String
  status : RobotStatus
  deriving DecidableEq, Inhabited

/-- The excerpt of a status that is published for spectators. -/
structure TelemetryPacket where
  robotId : UInt32
  epochTime : Float
  lastHandled : UInt64
  batteryVoltage : Single
  capacitorVoltage : Single
  currentDraw : Single
  cpuTemperature : Float
  iterationMs : Float
  errorCodes : List ErrorCode
  deriving DecidableEq, Inhabited

def TelemetryPacket.ofStatus (s : RobotStatus) (epochTime : Float) : TelemetryPacket :=
  ⟨s.robotId, epochTime, s.lastHandled, s.power.batteryVoltage, s.power.capacitorVoltage, s.power.currentDraw,
    s.cpuTemperature, s.cycleTimes.iteration, s.errorCodes⟩

end Onboard
