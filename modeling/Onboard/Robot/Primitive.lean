import Onboard.Robot.Chicker
import Onboard.Robot.Motion

/-!
Primitives, the commands that the team's planner sends, one per robot. A set carries a sequence number and the time
it was sent; of two sets the one sent later is newer, whatever their numbers.
-/

namespace Onboard

/-- Stop, direct demands, or a velocity to be reached within an acceleration limit. -/
inductive Primitive where
  | stop
  | direct (motor : MotorDemand) (power : ChickerCommand)
  | move (velocity : Velocity) (maxAcceleration dribbler : Float) (power : ChickerCommand)
  deriving DecidableEq

instance : Inhabited Primitive := ⟨.stop⟩

/-- Primitives by robot, ordered by the robots' numbers, each number at most once. -/
structure RobotMap where
  entries : List (UInt32 × Primitive)
  sorted : entries.Pairwise fun a b => a.1 < b.1 := by simp
  deriving DecidableEq

namespace RobotMap

def empty : RobotMap := ⟨[], .nil⟩

instance : Inhabited RobotMap := ⟨empty⟩

/-- Puts an entry in its place; an entry of the same robot gives way. -/
def place (robot : UInt32) (p : Primitive) : List (UInt32 × Primitive) → List (UInt32 × Primitive)
  | [] => [(robot, p)]
  | e :: rest =>
    if robot < e.1 then (robot, p) :: e :: rest
    else if robot = e.1 then (robot, p) :: rest
    else e :: place robot p rest

theorem mem_place {robot : UInt32} {p : Primitive} {l : List (UInt32 × Primitive)} {e : UInt32 × Primitive}
    (h : e ∈ place robot p l) : e = (robot, p) ∨ e ∈ l := by
  induction l with
  | nil => simpa [place] using h
  | cons head rest ih =>
    simp only [place] at h
    split at h
    · simpa using h
    · split at h
      · rcases List.mem_cons.1 h with h | h
        · exact .inl h
        · exact .inr (List.mem_cons_of_mem _ h)
      · rcases List.mem_cons.1 h with h | h
        · exact .inr (h ▸ List.mem_cons_self)
        · exact (ih h).imp_right (List.mem_cons_of_mem _)

theorem place_sorted (robot : UInt32) (p : Primitive) {l : List (UInt32 × Primitive)}
    (h : l.Pairwise fun a b => a.1 < b.1) : (place robot p l).Pairwise fun a b => a.1 < b.1 := by
  induction l with
  | nil => simp [place]
  | cons head rest ih =>
    obtain ⟨first, later⟩ := List.pairwise_cons.1 h
    simp only [place]
    split
    · next before =>
      refine List.pairwise_cons.2 ⟨fun e member => ?_, h⟩
      rcases List.mem_cons.1 member with rfl | member
      · exact before
      · exact UInt32.lt_trans before (first e member)
    · split
      · next equal => exact List.pairwise_cons.2 ⟨fun e member => equal ▸ first e member, later⟩
      · next notBefore notEqual =>
        refine List.pairwise_cons.2 ⟨fun e member => ?_, ih later⟩
        rcases mem_place member with rfl | member
        · exact UInt32.lt_of_le_of_ne (UInt32.not_lt.1 notBefore) (Ne.symm notEqual)
        · exact first e member

def insert (m : RobotMap) (robot : UInt32) (p : Primitive) : RobotMap :=
  ⟨place robot p m.entries, place_sorted robot p m.sorted⟩

def ofList (l : List (UInt32 × Primitive)) : RobotMap :=
  l.foldl (fun m e => m.insert e.1 e.2) empty

def get? (m : RobotMap) (robot : UInt32) : Option Primitive :=
  m.entries.lookup robot

end RobotMap

structure PrimitiveSet where
  sequence : UInt64
  timeSent : Float
  primitives : RobotMap
  deriving DecidableEq, Inhabited

namespace PrimitiveSet

/-- Sent strictly later; a time that is not a number is neither newer nor older. -/
def isNewerThan (a b : PrimitiveSet) : Bool :=
  b.timeSent < a.timeSent

def primitiveFor (s : PrimitiveSet) (robot : UInt32) : Option Primitive :=
  s.primitives.get? robot

end PrimitiveSet

end Onboard
