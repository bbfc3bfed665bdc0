import Onboard.Network.LossWindow

/-! The estimate of lost sets has no result for one kind of window: when its numbers reach from the least to the
greatest of 64 bits, the numbers in between are one too many to be counted. -/

namespace Onboard

instance instLawfulOrderMaxUInt64 : Std.LawfulOrderMax UInt64 where
  max_eq_or a b := by
    change (if a ≤ b then b else a) = a ∨ (if a ≤ b then b else a) = b
    split
    · exact .inr rfl
    · exact .inl rfl
  max_le_iff a b c := by
    change (if a ≤ b then b else a) ≤ c ↔ a ≤ c ∧ b ≤ c
    split
    · next below => exact ⟨fun h => ⟨UInt64.le_trans below h, h⟩, And.right⟩
    · next above => exact ⟨fun h => ⟨h, UInt64.le_trans (UInt64.le_of_lt (UInt64.not_le.mp above)) h⟩, And.left⟩

theorem addUInt64_one_error_iff (n : UInt64) : (∃ e, addUInt64 n 1 = .error e) ↔ n.toNat = 0xFFFFFFFFFFFFFFFF := by
  have bound := n.toNat_lt
  unfold addUInt64
  change (∃ e, (if n.toNat + 1 < 0x10000000000000000 then .ok (n + 1) else .error Fault.addOverflow) =
    Except.error e) ↔ _
  split
  · next counted => exact ⟨nofun, fun full => by omega⟩
  · next full => exact ⟨fun _ => by omega, fun _ => ⟨_, rfl⟩⟩

namespace LossWindow

theorem mem_record {w : LossWindow} {number m : UInt64} (member : m ∈ (w.record number).numbers) :
    m = number ∨ m ∈ w.numbers := by
  unfold record at member
  split at member
  · exact .inr member
  · have kept := List.mem_of_mem_drop member
    rcases List.mem_append.mp kept with old | new
    · split at old
      · contradiction
      · exact .inr old
    · exact .inl (List.mem_singleton.mp new)

theorem percentage_error_iff (w : LossWindow) :
    (∃ e, w.percentage = .error e) ↔ 0 ∈ w.numbers ∧ 0xFFFFFFFFFFFFFFFF ∈ w.numbers := by
  unfold percentage smallest? largest?
  cases least : w.numbers.min? with
  | none =>
    rw [List.min?_eq_none_iff.mp least]
    exact ⟨nofun, nofun⟩
  | some smallest =>
    cases greatest : w.numbers.max? with
    | none =>
      rw [List.max?_eq_none_iff.mp greatest]
      exact ⟨nofun, nofun⟩
    | some largest =>
      obtain ⟨memberLeast, below⟩ := List.min?_eq_some_iff.mp least
      obtain ⟨memberGreatest, above⟩ := List.max?_eq_some_iff.mp greatest
      have order : smallest ≤ largest := below largest memberGreatest
      have span : (∃ e, addUInt64 (largest - smallest) 1 = .error e) ↔
          smallest = 0 ∧ largest = 0xFFFFFFFFFFFFFFFF := by
        have bound := largest.toNat_lt
        rw [addUInt64_one_error_iff, UInt64.toNat_sub_of_le _ _ order, ← UInt64.toNat_inj, ← UInt64.toNat_inj]
        change _ ↔ smallest.toNat = 0 ∧ largest.toNat = 0xFFFFFFFFFFFFFFFF
        omega
      have counted : (∃ e, addUInt64 (largest - smallest) 1 = .error e) ↔
          0 ∈ w.numbers ∧ 0xFFFFFFFFFFFFFFFF ∈ w.numbers := by
        rw [span]
        constructor
        · rintro ⟨rfl, rfl⟩
          exact ⟨memberLeast, memberGreatest⟩
        · rintro ⟨first, last⟩
          have full : 0xFFFFFFFFFFFFFFFF ≤ largest.toNat := UInt64.le_iff_toNat_le.mp (above _ last)
          have bound := largest.toNat_lt
          refine ⟨UInt64.le_zero_iff.mp (below 0 first), UInt64.toNat_inj.mp ?_⟩
          change largest.toNat = 0xFFFFFFFFFFFFFFFF
          omega
      rw [← counted]
      dsimp only
      cases addUInt64 (largest - smallest) 1 with
      | error e => exact ⟨fun _ => ⟨e, rfl⟩, fun _ => ⟨e, rfl⟩⟩
      | ok expected => exact ⟨nofun, nofun⟩

theorem percentage_ok {w : LossWindow} (numbers : UInt64 → Prop)
    (counted : ¬ (numbers 0 ∧ numbers 0xFFFFFFFFFFFFFFFF)) (window : ∀ n ∈ w.numbers, numbers n) :
    ∃ loss, w.percentage = .ok loss := by
  cases estimate : w.percentage with
  | ok loss => exact ⟨loss, rfl⟩
  | error e =>
    obtain ⟨least, greatest⟩ := w.percentage_error_iff.mp ⟨e, estimate⟩
    exact absurd ⟨window _ least, window _ greatest⟩ counted

end LossWindow

end Onboard
