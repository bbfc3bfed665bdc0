/-!
Velocities in the robot's own frame, the demand on its motors and what the motors report.
-/

namespace Onboard

/-- Metres per second along the robot's axes and radians per second about its centre. -/
structure Velocity where
  x : Float
  y : Float
  angular : Float
  deriving DecidableEq

namespace Velocity

def zero : Velocity := ⟨0.0, 0.0, 0.0⟩

instance : Inhabited Velocity := ⟨zero⟩

def isFinite (v : Velocity) : Bool :=
  v.x.isFinite && v.y.isFinite && v.angular.isFinite

end Velocity

/-- What the motors are asked for in one cycle; the dribbler turns at revolutions per minute. -/
structure MotorDemand where
  velocity : Velocity
  dribbler : Float
  deriving DecidableEq

def MotorDemand.zero : MotorDemand := ⟨.zero, 0.0⟩

instance : Inhabited MotorDemand := ⟨.zero⟩

inductive Motor where
  | frontLeft
  | backLeft
  | backRight
  | frontRight
  | dribbler
  deriving DecidableEq, Inhabited

inductive MotorFault where
  | overTemperature
  | overCurrent
  | underVoltage
  | hallSensorError
  | commsTimeout
  | driverFault
  deriving DecidableEq, Inhabited

structure MotorFaultReport where
  motor : Motor
  enabled : Bool
  faults : List MotorFault
  deriving DecidableEq, Inhabited

structure MotorStatus where
  velocity : Velocity
  dribbler : Float
  faults : List MotorFaultReport
  deriving DecidableEq

def MotorStatus.initial : MotorStatus := ⟨.zero, 0.0, []⟩

instance : Inhabited MotorStatus := ⟨.initial⟩

/-- With no motor board the motors are taken to do at once what they are asked, without faults. -/
def MotorStatus.ideal (demand : MotorDemand) : MotorStatus :=
  ⟨demand.velocity, demand.dribbler, []⟩

end Onboard
