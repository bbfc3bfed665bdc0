import Onboard.Proofs.Json.Kept
import Onboard.Proofs.Wire.Control
import Onboard.Proofs.Wire.Exact
import Onboard.Proofs.Wire.Status

/-! Primitive sets come back from the wire as they were. Each record is kept just if its numbers are, a robot's number
is a key without a zero in front, and a map's entries are put back in their order. -/

namespace Onboard

open Json

theorem escapeByte_digit {c : Char} (digit : isDigit c = true) :
    escapeByte (UInt8.ofNat c.toNat) = [UInt8.ofNat c.toNat] := by
  have each : ∀ n : Fin 10, escapeByte (UInt8.ofNat (48 + n)) = [UInt8.ofNat (48 + n)] := by decide
  obtain ⟨low, high⟩ := digit_cases digit
  obtain ⟨n, same⟩ := Nat.exists_eq_add_of_le low
  rw [same]
  exact each ⟨n, by omega⟩

theorem isContent_digits {digits : List Char} (all : Spelling.AreDigits digits) : IsContent (toBytes digits) := by
  induction digits with
  | nil => exact fun _ => rfl
  | cons c rest ih =>
    have first := isContent_escapeByte (UInt8.ofNat c.toNat)
    rw [escapeByte_digit (all c List.mem_cons_self)] at first
    exact first.append (ih fun d member => all d (List.mem_cons_of_mem _ member))

namespace RobotMap

theorem number_eq (robot : UInt32) : ascii (toString robot.toNat) = toBytes (Decimal.digitList robot.toNat) := by
  have whole := ofNat_eq robot.toNat
  rw [text_wholeSpelling] at whole
  exact Json.number.inj whole

theorem isContent_number (robot : UInt32) : IsContent (ascii (toString robot.toNat)) := by
  rw [number_eq]
  exact isContent_digits (areDigits_digitList robot.toNat)

/-- A robot's number stands as digits without a zero in front. -/
theorem key?_number (robot : UInt32) : key? (ascii (toString robot.toNat)) = some robot := by
  have plain : ¬ ((ascii (toString robot.toNat)).head? = some 0x30 ∧ (ascii (toString robot.toNat)).length ≠ 1 ∨
      ascii (toString robot.toNat) = []) := by
    rw [number_eq]
    rintro (⟨zero, long⟩ | nothing)
    · rcases Nat.eq_zero_or_pos robot.toNat with none | positive
      · rw [none] at long
        exact long rfl
      · have head := head?_digitList positive
        have digits := areDigits_digitList robot.toNat
        cases same : Decimal.digitList robot.toNat with
        | nil => exact digitList_ne_nil _ same
        | cons c rest =>
          rw [same] at zero head digits
          have small := digit_cases (digits c List.mem_cons_self)
          rw [toBytes, List.map_cons, List.head?_cons, Option.some.injEq] at zero
          have back := ofNat_byte (c := c) (by omega)
          rw [zero] at back
          rw [List.head?_cons, ← back] at head
          exact head rfl
    · exact digitList_ne_nil _ (List.map_eq_nil_iff.mp nothing)
  rw [key?, if_neg plain]
  exact (congrArg (Option.map UInt32.ofNat) (toNat?_ofNat (Nat.le_of_lt_succ robot.toNat_lt))).trans (by simp)

theorem eq_of_entries {a b : RobotMap} (same : a.entries = b.entries) : a = b := by
  cases a
  cases b
  cases same
  rfl

theorem place_last {l : List (UInt32 × Primitive)} (above : ∀ e ∈ l, e.1 < robot) :
    place robot p l = l ++ [(robot, p)] := by
  induction l with
  | nil => rfl
  | cons e rest ih =>
    rw [List.forall_mem_cons] at above
    have after : ¬ robot < e.1 := UInt32.not_lt.mpr (UInt32.le_of_lt above.1)
    have apart : robot ≠ e.1 := fun same => UInt32.lt_irrefl _ (same ▸ above.1)
    rw [place, if_neg after, if_neg apart, ih above.2, List.cons_append]

/-- Entries in their order are put back one after the other. -/
theorem ofList_entries (m : RobotMap) : ofList m.entries = m := by
  have put (l : List (UInt32 × Primitive)) (before : RobotMap)
      (sorted : (before.entries ++ l).Pairwise fun a b => a.1 < b.1) :
      (l.foldl (fun m e => m.insert e.1 e.2) before).entries = before.entries ++ l := by
    induction l generalizing before with
    | nil => exact (List.append_nil _).symm
    | cons e rest ih =>
      have last : (before.insert e.1 e.2).entries = before.entries ++ [e] :=
        place_last fun a member => (List.pairwise_append.mp sorted).2.2 a member e List.mem_cons_self
      have next := ih (before.insert e.1 e.2) (by rwa [last, List.append_assoc])
      rw [List.foldl_cons, next, last, List.append_assoc]
      rfl
  exact eq_of_entries (put m.entries empty m.sorted)

end RobotMap

section Kept
variable {σ : Json → Json} (reads : Renumbers σ)
include reads

theorem Velocity.ofJson?_eq_iff (v : Velocity) :
    ofJson? (σ v.toJson) = some v ↔ ∀ x ∈ v.numbers, KeepsFloat σ x := by
  obtain ⟨x, y, angular⟩ := v
  unfold ofJson? toJson
  rw [reads.fields? _ _ (by decide) rfl]
  simp [required, Option.bind_eq_some_iff, numbers, KeepsFloat]

theorem MotorDemand.ofJson?_eq_iff (m : MotorDemand) :
    ofJson? (σ m.toJson) = some m ↔ ∀ x ∈ m.numbers, KeepsFloat σ x := by
  have velocity := m.velocity.ofJson?_eq_iff reads
  obtain ⟨v, dribbler⟩ := m
  have fields := reads.fields? ["target_velocity", "dribbler_speed_rpm"] [v.toJson, ofFloat dribbler] (by decide) rfl
  unfold ofJson? toJson
  rw [List.zip_cons_cons, List.zip_cons_cons, List.zip_nil_right] at fields
  rw [fields]
  simp [required, Option.bind_eq_some_iff, numbers, KeepsFloat, velocity, or_imp, forall_and]

namespace ChickerCommand

theorem readAmount?_record (field : String) (x : Float) :
    readAmount? field (σ (Wire.record [(field, ofFloat x)])) = toFloat? (σ (ofFloat x)) := by
  have fields := reads.fields? [field] [ofFloat x] (List.nodup_singleton _) rfl
  rw [List.zip_cons_cons, List.zip_nil_right] at fields
  rw [readAmount?, fields]
  rfl

theorem commandOfJson?_eq_iff (c : ChickerCommand) :
    commandOfJson? (σ c.commandToJson) = some c ↔ ∀ x ∈ c.numbers, KeepsFloat σ x := by
  unfold commandOfJson? commandToJson
  cases c with
  | idle =>
    simp [reads.toVariant?_text, numbers]
  | kick | chip | autoKick | autoChip =>
    simp [reads.toVariant?_variant, readAmount?_record reads, numbers, KeepsFloat]

theorem ofJson?_eq_iff (c : ChickerCommand) : ofJson? (σ c.toJson) = some c ↔ ∀ x ∈ c.numbers, KeepsFloat σ x := by
  have fields := reads.fields? ["chicker"] [c.commandToJson] (by decide) rfl
  rw [List.zip_cons_cons, List.zip_nil_right] at fields
  rw [ofJson?, toJson, fields]
  exact commandOfJson?_eq_iff reads c

end ChickerCommand

theorem Primitive.ofJson?_eq_iff (p : Primitive) :
    ofJson? (σ p.toJson) = some p ↔ ∀ x ∈ p.numbers, KeepsFloat σ x := by
  unfold ofJson? toJson
  cases p with
  | stop => simp [reads.toVariant?_text, numbers]
  | direct motor power =>
    have fields := reads.fields? directFields [motor.toJson, power.toJson] (by decide) rfl
    simp [reads.toVariant?_variant, direct?, fields, required, Option.bind_eq_some_iff, numbers,
      motor.ofJson?_eq_iff reads, power.ofJson?_eq_iff reads, or_imp, forall_and]
  | move velocity maxAcceleration dribbler power =>
    have fields := reads.fields? moveFields
      [velocity.toJson, ofFloat maxAcceleration, ofFloat dribbler, power.toJson] (by decide) rfl
    simp [reads.toVariant?_variant, move?, fields, required, Option.bind_eq_some_iff, numbers, KeepsFloat,
      velocity.ofJson?_eq_iff reads, power.ofJson?_eq_iff reads, or_imp, forall_and]

theorem timestamp?_record (seconds : Float) :
    timestamp? (σ (timestampToJson seconds)) = toFloat? (σ (ofFloat seconds)) := by
  rw [timestamp?, timestampToJson, reads.fields? _ _ (by decide) rfl]
  rfl

theorem RobotMap.entry?_member {e : UInt32 × Primitive} (kept : ∀ x ∈ e.2.numbers, KeepsFloat σ x) :
    entry? (ascii (toString e.1.toNat), σ e.2.toJson) = some e := by
  rw [ entry?, key?_number, (e.2.ofJson?_eq_iff reads).mpr kept]
  rfl

theorem RobotMap.ofJson?_eq (m : RobotMap) (kept : ∀ e ∈ m.entries, ∀ x ∈ e.2.numbers, KeepsFloat σ x) :
    ofJson? (σ m.toJson) = some m := by
  have all : (m.entries.map fun e => (ascii (toString e.1.toNat), σ e.2.toJson)).mapM entry? = some m.entries :=
    mapM_map fun e member => entry?_member reads (kept e member)
  rw [toJson, reads.object, List.map_map, ofJson?]
  exact (congrArg (Option.map ofList) all).trans (congrArg some (ofList_entries m))

theorem PrimitiveSet.ofJson?_eq (s : PrimitiveSet) (kept : ∀ x ∈ s.numbers, KeepsFloat σ x) :
    ofJson? (σ s.toJson) = some s := by
  obtain ⟨time, demands⟩ := List.forall_mem_cons.mp kept
  have sequence : toNat? 0xFFFFFFFFFFFFFFFF (σ (ofNat s.sequence.toNat)) = some s.sequence.toNat :=
    reads.toNat? (Nat.le_of_lt_succ s.sequence.toNat_lt) (Nat.le_refl _)
  have timeSent : timestamp? (σ (timestampToJson s.timeSent)) = some s.timeSent :=
    (timestamp?_record reads s.timeSent).trans time
  have map := RobotMap.ofJson?_eq reads s.primitives (List.forall_mem_flatMap.mp demands)
  rw [ofJson?, toJson, reads.fields? _ _ (by decide) rfl]
  simp [required, sequence, timeSent, map]

end Kept

theorem membersLegible_iff (members : List (Bytes × Json)) :
    MembersLegible members ↔ ∀ m ∈ members, IsContent m.1 ∧ IsLegible m.2 := by
  induction members with
  | nil => simp [MembersLegible]
  | cons m rest ih => simp [MembersLegible, ih, and_assoc]

theorem MotorDemand.isLegible (m : MotorDemand) : IsLegible m.toJson :=
  isLegible_record (by simp [m.velocity.isLegible, isLegible_ofFloat])

theorem isLegible_variant {name : String} {value : Json} (legible : IsLegible value) :
    IsLegible (Wire.variant name value) :=
  isLegible_record (by simpa using legible)

theorem ChickerCommand.isLegible (c : ChickerCommand) : IsLegible c.toJson := by
  refine isLegible_record (List.forall_mem_singleton.mpr ?_)
  cases c with
  | idle => exact isLegible_ofText _
  | kick | chip | autoKick | autoChip => exact isLegible_variant (isLegible_record (by simp [isLegible_ofFloat]))

theorem Primitive.isLegible (p : Primitive) : IsLegible p.toJson := by
  cases p with
  | stop => exact isLegible_ofText _
  | direct motor power => exact isLegible_variant (isLegible_zip (by simp [motor.isLegible, power.isLegible]))
  | move velocity limit dribbler power =>
    exact isLegible_variant (isLegible_zip (by simp [velocity.isLegible, isLegible_ofFloat, power.isLegible]))

theorem PrimitiveSet.isLegible (s : PrimitiveSet) : IsLegible s.toJson := by
  have time : IsLegible (timestampToJson s.timeSent) := isLegible_zip (by simp [isLegible_ofFloat])
  have map : IsLegible s.primitives.toJson := by
    refine (membersLegible_iff _).mpr fun member inside => ?_
    obtain ⟨e, -, rfl⟩ := List.mem_map.mp inside
    exact ⟨RobotMap.isContent_number e.1, e.2.isLegible⟩
  exact isLegible_zip (by simp [isLegible_ofNat, time, map])

namespace PrimitiveSet

def isFinite (s : PrimitiveSet) : Bool :=
  s.numbers.all Float.isFinite

theorem readExact?_write {s : PrimitiveSet} (finite : s.isFinite = true) :
    Wire.readExact? (Wire.write s) = some s := by
  rw [Wire.readExact?_write s.isLegible]
  exact ofJson?_eq renumbers_id s fun x member => toFloat?_ofFloat_eq (List.all_eq_true.mp finite x member)

/-- Receivers read a set whose numbers have few digits as an exact reader does. -/
theorem read?_eq_readExact? {s : PrimitiveSet} (finite : s.isFinite = true)
    (few : ∀ x ∈ s.numbers, hasFewDigits x = true) :
    (Wire.read? (Wire.write s) : Option PrimitiveSet) = Wire.readExact? (Wire.write s) := by
  rw [readExact?_write finite, Wire.read?_write s.isLegible]
  refine ofJson?_eq renumbers_settle s fun x member => ?_
  have number : x.isFinite = true := List.all_eq_true.mp finite x member
  exact (toFloat?_settle_iff x).mpr ⟨number, received_of_few number (few x member)⟩

theorem isFinite_of_readExact? {s : PrimitiveSet} (read : Wire.readExact? text = some s) : s.isFinite = true := by
  obtain ⟨j, -, read⟩ := Option.bind_eq_some_iff.mp read
  exact List.all_eq_true.mpr (isFinite_numbers read)

/-- Sets of finite numbers are read as they were written, and every set that is read is one of them. -/
theorem sets_read_back :
    (∀ s : PrimitiveSet, s.isFinite = true → Wire.readExact? (Wire.write s) = some s ∧
      ∀ robot, ((Wire.readExact? (Wire.write s)).bind fun r : PrimitiveSet => r.primitiveFor robot) =
        s.primitiveFor robot) ∧
    ∀ (text : Bytes) (s : PrimitiveSet), Wire.readExact? text = some s →
      s.isFinite = true ∧ Wire.readExact? (Wire.write s) = some s := by
  refine ⟨fun s finite => ⟨readExact?_write finite, fun robot => ?_⟩, fun text s read => ?_⟩
  · rw [readExact?_write finite, Option.bind_some]
  · have finite := isFinite_of_readExact? read
    exact ⟨finite, readExact?_write finite⟩

/-- A negative zero, a subnormal and the greatest double, under the greatest numbers. -/
def extreme : PrimitiveSet :=
  ⟨0xFFFFFFFFFFFFFFFF, 1.7976931348623157e308, .ofList
    [(0xFFFFFFFF, .move ⟨-0.0, 5e-324, -1e23⟩ 0.1 0.0 (.autoChip (-0.0))), (0, .direct .zero (.kick 4.5))]⟩

theorem sets_read_back_extreme : extreme.isFinite = true ∧ Wire.readExact? (Wire.write extreme) = some extreme :=
  ⟨by decide +kernel, (sets_read_back.1 extreme (by decide +kernel)).1⟩

end PrimitiveSet

end Onboard
