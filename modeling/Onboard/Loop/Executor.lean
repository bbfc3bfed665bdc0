import Onboard.Number.Double
import Onboard.Robot.Primitive

/-!
From primitives to demands on motors and chicker. A move approaches its velocity from the measured one, the change of
the linear part limited by the primitive's acceleration.
-/

namespace Onboard

/-- The velocity one step of `dt` seconds from `current` towards `target`. A limit or a step that is not positive
does not limit. -/
def limitAcceleration (current target : Velocity) (maxAcceleration dt : Float) : Velocity :=
  if 0.0 < maxAcceleration ∧ 0.0 < dt then
    let dx := target.x - current.x
    let dy := target.y - current.y
    let change := Double.hypot dx dy
    let maxChange := maxAcceleration * dt
    if change ≤ maxChange then target
    else
      let scale := maxChange / change
      ⟨current.x + dx * scale, current.y + dy * scale, target.angular⟩
  else target

structure ExecutorOutput where
  motor : MotorDemand
  power : ChickerCommand
  deriving DecidableEq

def ExecutorOutput.atRest : ExecutorOutput := ⟨.zero, .idle⟩

/-- The primitive that was started last. -/
structure Executor where
  primitive : Primitive
  deriving DecidableEq

namespace Executor

def initial : Executor := ⟨.stop⟩

def start (_ : Executor) (p : Primitive) : Executor := ⟨p⟩

def step (e : Executor) (measured : Velocity) (dt : Float) : ExecutorOutput :=
  match e.primitive with
  | .stop => .atRest
  | .direct motor power => ⟨motor, power⟩
  | .move velocity maxAcceleration dribbler power =>
    ⟨⟨limitAcceleration measured velocity maxAcceleration dt, dribbler⟩, power⟩

end Executor

end Onboard
