import Onboard.Loop.Executor
import Onboard.Wire.Control

/-! What a set off the wire is made of. A field for a number takes finite numbers only, so that all the numbers of a
set are finite. -/

namespace Onboard

open Json

namespace Json

theorem isFinite_of_toFloat? {j : Json} (read : toFloat? j = some x) : x.isFinite = true := by
  unfold toFloat? at read
  split at read
  · obtain ⟨n, -, rounded⟩ := Option.bind_eq_some_iff.mp read
    dsimp only at rounded
    split at rounded
    · next finite =>
      cases rounded
      exact finite
    · contradiction
  · contradiction

theorem isFinite_of_required {field : Option Json} (read : required toFloat? field = some x) : x.isFinite = true := by
  obtain ⟨j, -, read⟩ := Option.bind_eq_some_iff.mp read
  exact isFinite_of_toFloat? read

theorem exists_of_mapM {α β : Type} {f : α → Option β} {l : List α} {results : List β} (all : l.mapM f = some results) :
    ∀ y ∈ results, ∃ x ∈ l, f x = some y := by
  induction l generalizing results with
  | nil =>
    cases all
    exact nofun
  | cons x rest ih =>
    simp only [List.mapM_cons, Option.bind_eq_bind, Option.bind_eq_some_iff, Option.pure_def, Option.some.injEq] at all
    obtain ⟨y, first, ys, others, rfl⟩ := all
    rw [List.forall_mem_cons]
    refine ⟨⟨x, List.mem_cons_self, first⟩, fun z member => ?_⟩
    obtain ⟨w, inside, found⟩ := ih others z member
    exact ⟨w, List.mem_cons_of_mem _ inside, found⟩

end Json

def Velocity.numbers (v : Velocity) : List Float :=
  [v.x, v.y, v.angular]

def MotorDemand.numbers (m : MotorDemand) : List Float :=
  m.velocity.numbers ++ [m.dribbler]

def ChickerCommand.numbers : ChickerCommand → List Float
  | .idle => []
  | .kick amount | .chip amount | .autoKick amount | .autoChip amount => [amount]

def Primitive.numbers : Primitive → List Float
  | .stop => []
  | .direct motor power => motor.numbers ++ power.numbers
  | .move velocity maxAcceleration dribbler power =>
    velocity.numbers ++ [maxAcceleration, dribbler] ++ power.numbers

def PrimitiveSet.numbers (s : PrimitiveSet) : List Float :=
  s.timeSent :: s.primitives.entries.flatMap fun e => e.2.numbers

/-- The speed of the dribbler that a primitive asks for. -/
def Primitive.dribbler : Primitive → Float
  | .stop => 0.0
  | .direct motor _ => motor.dribbler
  | .move _ _ dribbler _ => dribbler

theorem Executor.dribbler_step (e : Executor) (measured : Velocity) (dt : Float) :
    (e.step measured dt).motor.dribbler = e.primitive.dribbler := by
  unfold step
  cases e.primitive <;> rfl

theorem Velocity.isFinite_numbers {j : Json} (read : ofJson? j = some v) : ∀ x ∈ v.numbers, x.isFinite = true := by
  obtain ⟨fields, -, read⟩ := Option.bind_eq_some_iff.mp read
  split at read
  · simp only [Option.bind_eq_bind, Option.bind_eq_some_iff, Option.pure_def, Option.some.injEq] at read
    obtain ⟨x, first, y, second, angular, third, rfl⟩ := read
    simp [numbers, isFinite_of_required first, isFinite_of_required second, isFinite_of_required third]
  · contradiction

theorem MotorDemand.isFinite_numbers {j : Json} (read : ofJson? j = some m) : ∀ x ∈ m.numbers, x.isFinite = true := by
  obtain ⟨fields, -, read⟩ := Option.bind_eq_some_iff.mp read
  split at read
  · simp only [Option.bind_eq_bind, Option.bind_eq_some_iff, Option.pure_def, Option.some.injEq] at read
    obtain ⟨velocity, first, dribbler, second, rfl⟩ := read
    obtain ⟨j, -, first⟩ := Option.bind_eq_some_iff.mp first
    refine List.forall_mem_append.mpr ⟨velocity.isFinite_numbers first, ?_⟩
    exact List.forall_mem_singleton.mpr (isFinite_of_required second)
  · contradiction

theorem ChickerCommand.isFinite_amount {j : Json} (read : (readAmount? field j).map command = some c) :
    ∃ x : Float, c = command x ∧ x.isFinite = true := by
  obtain ⟨x, amount, rfl⟩ := Option.map_eq_some_iff.mp read
  obtain ⟨fields, -, amount⟩ := Option.bind_eq_some_iff.mp amount
  split at amount
  · exact ⟨x, rfl, isFinite_of_required amount⟩
  · contradiction

theorem ChickerCommand.isFinite_numbers {j : Json} (read : ofJson? j = some c) :
    ∀ x ∈ c.numbers, x.isFinite = true := by
  obtain ⟨fields, -, read⟩ := Option.bind_eq_some_iff.mp read
  split at read
  · obtain ⟨j, -, read⟩ := Option.bind_eq_some_iff.mp read
    obtain ⟨variant, -, read⟩ := Option.bind_eq_some_iff.mp read
    split at read
    all_goals first
      | contradiction
      | cases read; exact nofun
      | obtain ⟨x, rfl, finite⟩ := isFinite_amount read; exact List.forall_mem_singleton.mpr finite
  · contradiction

theorem Primitive.isFinite_numbers {j : Json} (read : ofJson? j = some p) : ∀ x ∈ p.numbers, x.isFinite = true := by
  obtain ⟨variant, -, read⟩ := Option.bind_eq_some_iff.mp read
  split at read
  · cases read
    exact nofun
  · cases read
    exact nofun
  · obtain ⟨fields, -, read⟩ := Option.bind_eq_some_iff.mp read
    split at read
    · simp only [Option.bind_eq_bind, Option.bind_eq_some_iff, Option.pure_def, Option.some.injEq] at read
      obtain ⟨motor, first, power, second, rfl⟩ := read
      obtain ⟨motion, -, first⟩ := Option.bind_eq_some_iff.mp first
      obtain ⟨command, -, second⟩ := Option.bind_eq_some_iff.mp second
      exact List.forall_mem_append.mpr ⟨motor.isFinite_numbers first, power.isFinite_numbers second⟩
    · contradiction
  · obtain ⟨fields, -, read⟩ := Option.bind_eq_some_iff.mp read
    split at read
    · simp only [Option.bind_eq_bind, Option.bind_eq_some_iff, Option.pure_def, Option.some.injEq] at read
      obtain ⟨velocity, first, limit, second, dribbler, third, power, fourth, rfl⟩ := read
      obtain ⟨motion, -, first⟩ := Option.bind_eq_some_iff.mp first
      obtain ⟨command, -, fourth⟩ := Option.bind_eq_some_iff.mp fourth
      simp only [numbers, List.forall_mem_append, List.forall_mem_cons]
      exact ⟨⟨velocity.isFinite_numbers first, isFinite_of_required second, isFinite_of_required third, nofun⟩,
        power.isFinite_numbers fourth⟩
    · contradiction
  · contradiction

theorem Primitive.isFinite_dribbler (finite : ∀ x ∈ numbers p, x.isFinite = true) : p.dribbler.isFinite = true := by
  cases p with
  | stop => decide
  | direct motor power => exact finite _ (by simp [numbers, MotorDemand.numbers, dribbler])
  | move velocity limit dribbler power => exact finite _ (by simp [numbers, Primitive.dribbler])

theorem RobotMap.mem_ofList {l : List (UInt32 × Primitive)} (member : e ∈ (ofList l).entries) : e ∈ l := by
  have added (m : RobotMap) : e ∈ (l.foldl (fun m e => m.insert e.1 e.2) m).entries → e ∈ m.entries ∨ e ∈ l := by
    clear member
    induction l generalizing m with
    | nil => exact .inl
    | cons head rest ih =>
      intro member
      rcases ih _ member with placed | later
      · exact (mem_place placed).elim (fun same => .inr (same ▸ List.mem_cons_self)) .inl
      · exact .inr (List.mem_cons_of_mem _ later)
  exact (added empty member).resolve_left nofun

theorem RobotMap.isFinite_numbers {j : Json} (read : ofJson? j = some m) :
    ∀ e ∈ m.entries, ∀ x ∈ e.2.numbers, x.isFinite = true := by
  intro e member
  unfold ofJson? at read
  split at read
  · obtain ⟨entries, found, rfl⟩ := Option.map_eq_some_iff.mp read
    obtain ⟨source, -, entry⟩ := exists_of_mapM found e (mem_ofList member)
    unfold entry? at entry
    simp only [Option.bind_eq_bind, Option.bind_eq_some_iff, Option.pure_def, Option.some.injEq] at entry
    obtain ⟨robot, -, p, found, rfl⟩ := entry
    exact Primitive.isFinite_numbers found
  · contradiction

namespace PrimitiveSet

theorem isFinite_numbers {j : Json} (read : ofJson? j = some s) : ∀ x ∈ s.numbers, x.isFinite = true := by
  obtain ⟨fields, -, read⟩ := Option.bind_eq_some_iff.mp read
  split at read
  · simp only [Option.bind_eq_bind, Option.bind_eq_some_iff, Option.pure_def, Option.some.injEq] at read
    obtain ⟨sequence, -, timeSent, time, primitives, map, rfl⟩ := read
    refine List.forall_mem_cons.mpr ⟨?_, List.forall_mem_flatMap.mpr ?_⟩
    · obtain ⟨j, -, time⟩ := Option.bind_eq_some_iff.mp time
      obtain ⟨fields, -, time⟩ := Option.bind_eq_some_iff.mp time
      split at time
      · exact isFinite_of_required time
      · contradiction
    · obtain ⟨j, -, map⟩ := Option.bind_eq_some_iff.mp map
      exact RobotMap.isFinite_numbers map
  · contradiction

/-- A set as it comes off the wire. -/
def IsRead (s : PrimitiveSet) : Prop :=
  ∃ text, Wire.read? text = some s

namespace IsRead

theorem parts {s : PrimitiveSet} (isRead : s.IsRead) :
    s.timeSent.isFinite = true ∧ ∀ e ∈ s.primitives.entries, e.2.dribbler.isFinite = true := by
  obtain ⟨text, read⟩ := isRead
  obtain ⟨j, -, read⟩ := Option.bind_eq_some_iff.mp read
  obtain ⟨time, finite⟩ := List.forall_mem_cons.mp (isFinite_numbers read)
  exact ⟨time, fun e member => Primitive.isFinite_dribbler (List.forall_mem_flatMap.mp finite e member)⟩

theorem isFinite_dribbler {s : PrimitiveSet} (isRead : s.IsRead) (found : s.primitiveFor robot = some p) :
    p.dribbler.isFinite = true := by
  obtain ⟨before, after, entries, -⟩ := List.lookup_eq_some_iff.mp found
  exact isRead.parts.2 (robot, p) (entries ▸ List.mem_append_right _ List.mem_cons_self)

end IsRead

end PrimitiveSet

end Onboard
