import Mathlib
import Onboard.Proofs.Network.Reordering

/-! What the window of the loss estimate holds, whatever numbers have come. Its numbers are distinct, and none is
further ahead of a later one than the window is wide, since a number that falls back further begins the window anew. So
the share of missing numbers is that of the gaps in an interval, and there is none exactly if there are no gaps. -/

namespace Onboard

namespace LossWindow

/-- The greatest number that this one may come after without being taken for a restart. -/
def horizon (w : LossWindow) (number : UInt64) : UInt64 :=
  saturatingAdd number (UInt64.ofNat w.capacity)

/-- Distinct numbers, no more than there is room for, each within the horizon of all that came after it. -/
structure IsWindow (w : LossWindow) : Prop where
  room : 2 ≤ w.capacity
  nodup : w.numbers.Nodup
  few : w.numbers.length ≤ w.capacity
  near : w.numbers.Pairwise fun early late => early ≤ w.horizon late

/-- How many numbers there are from one to another, both included. -/
def span (least greatest : UInt64) : ℕ :=
  greatest.toNat - least.toNat + 1

/-- The exact share of missing numbers, of which the estimate is the percentage in doubles. -/
def missing (w : LossWindow) (least greatest : UInt64) : ℚ :=
  1 - w.numbers.length / span least greatest

/-- The estimate is computed from the counts as they are; the exact share is less than the whole, and nought exactly if
there is no gap. -/
structure Estimates (w : LossWindow) (least greatest : UInt64) : Prop where
  percentage : w.percentage = .ok (lossOf w.numbers.length (span least greatest))
  nonneg : 0 ≤ w.missing least greatest
  less : w.missing least greatest < 1
  none_iff : w.missing least greatest = 0 ↔ IsGapless w.numbers

/-- What a number does to a window. -/
inductive Records (w : LossWindow) (number : UInt64) : LossWindow → Prop where
  | known : number ∈ w.numbers → Records w number w
  | fresh {kept : List UInt64} : number ∉ w.numbers → kept <:+ w.numbers → kept.length < w.capacity →
      (∀ m ∈ kept, m ≤ w.horizon number) → Records w number { w with numbers := kept ++ [number] }

theorem near_of_no_restart {w : LossWindow} {number : UInt64} (goesOn : w.isRestart number = false) :
    ∀ m ∈ w.numbers, m ≤ w.horizon number := by
  intro m member
  unfold isRestart largest? at goesOn
  cases found : w.numbers.max? with
  | none =>
    rw [List.max?_eq_none_iff.mp found] at member
    exact absurd member List.not_mem_nil
  | some largest =>
    rw [found] at goesOn
    have order : largest ≤ w.horizon number := UInt64.not_lt.mp (of_decide_eq_false goesOn)
    exact UInt64.le_trans ((List.max?_eq_some_iff.mp found).2 m member) order

theorem records (w : LossWindow) (number : UInt64) (room : 1 ≤ w.capacity) : Records w number (w.record number) := by
  unfold record
  split
  · next known => exact .known (List.contains_iff_mem.mp known)
  · next unknown =>
    have fresh : number ∉ w.numbers := fun member => unknown (List.contains_iff_mem.mpr member)
    -- What is left of the old numbers, before the oldest go for want of room.
    generalize left : (if w.isRestart number then [] else w.numbers) = old
    have suffix : old <:+ w.numbers := by
      subst left
      split
      · exact List.nil_suffix
      · exact List.suffix_refl _
    have near : ∀ m ∈ old, m ≤ w.horizon number := by
      subst left
      split
      · exact nofun
      · next goesOn => exact near_of_no_restart (Bool.eq_false_iff.mpr goesOn)
    dsimp only
    rw [List.length_append, List.length_singleton, List.drop_append_of_le_length (by omega)]
    apply Records.fresh fresh ((List.drop_suffix ..).trans suffix)
    · rw [List.length_drop]
      omega
    · intro m member
      exact near m (List.mem_of_mem_drop member)

theorem Records.mem {w next : LossWindow} {number : UInt64} (records : Records w number next) :
    number ∈ next.numbers := by
  cases records with
  | known member => exact member
  | fresh => exact List.mem_append_right _ (List.mem_singleton_self number)

theorem IsWindow.step {w next : LossWindow} {number : UInt64} (isWindow : IsWindow w)
    (records : Records w number next) : IsWindow next := by
  cases records with
  | known => exact isWindow
  | @fresh kept unknown suffix few near =>
    constructor
    case room => exact isWindow.room
    case nodup =>
      apply List.Nodup.append (isWindow.nodup.sublist suffix.sublist) (List.nodup_singleton number)
      intro m member last
      rw [List.mem_singleton.mp last] at member
      exact unknown (suffix.subset member)
    case few =>
      rw [List.length_append, List.length_singleton]
      exact few
    case near =>
      apply List.pairwise_append.mpr
      refine ⟨isWindow.near.sublist suffix.sublist, List.pairwise_singleton _ number, ?_⟩
      intro early member late last
      rw [List.mem_singleton.mp last]
      exact near early member

theorem isWindow_after (capacity : ℕ) (numbers : List UInt64) : IsWindow (after capacity numbers) := by
  induction numbers using List.reverseRecOn with
  | nil =>
    constructor
    case room => exact Nat.le_max_left 2 capacity
    case nodup => exact List.nodup_nil
    case few => exact Nat.zero_le _
    case near => exact .nil
  | append_singleton numbers number ih =>
    rw [after_concat]
    exact ih.step (records _ number (Nat.le_of_succ_le ih.room))

theorem record_known {w : LossWindow} {number : UInt64} (known : number ∈ w.numbers) : w.record number = w :=
  if_pos (List.contains_iff_mem.mpr known)

/-- Distinct numbers of an interval are as many as the interval has only if they are all of it. -/
theorem length_of_interval {numbers : List ℕ} {least greatest : ℕ} (nodup : numbers.Nodup) (order : least ≤ greatest)
    (range : ∀ n ∈ numbers, least ≤ n ∧ n ≤ greatest) :
    numbers.length ≤ greatest - least + 1 ∧
      (numbers.length = greatest - least + 1 ↔ ∀ n, least ≤ n → n ≤ greatest → n ∈ numbers) := by
  have inside : numbers.toFinset ⊆ Finset.Icc least greatest := by
    intro n member
    exact Finset.mem_Icc.mpr (range n (List.mem_toFinset.mp member))
  have size : (Finset.Icc least greatest).card = greatest - least + 1 := by
    rw [Nat.card_Icc]
    omega
  rw [← List.toFinset_card_of_nodup nodup, ← size]
  refine ⟨Finset.card_le_card inside, ?_⟩
  constructor
  · intro full n above below
    have whole := Finset.eq_of_subset_of_card_le inside full.ge
    rw [← List.mem_toFinset, whole]
    exact Finset.mem_Icc.mpr ⟨above, below⟩
  · intro all
    apply congrArg Finset.card
    apply inside.antisymm
    intro n member
    obtain ⟨above, below⟩ := Finset.mem_Icc.mp member
    exact List.mem_toFinset.mpr (all n above below)

/-- A window has no gap exactly if it has every number from its least to its greatest. -/
theorem isGapless_iff {numbers : List UInt64} {least greatest : UInt64} (memberLeast : least ∈ numbers)
    (memberGreatest : greatest ∈ numbers) (range : ∀ n ∈ numbers, least ≤ n ∧ n ≤ greatest) :
    IsGapless numbers ↔
      ∀ n, least.toNat ≤ n → n ≤ greatest.toNat → n ∈ numbers.map UInt64.toNat := by
  constructor
  · intro gapless n above below
    have same : (UInt64.ofNat n).toNat = n := UInt64.toNat_ofNat_of_lt (below.trans_lt greatest.toNat_lt)
    have member : UInt64.ofNat n ∈ numbers := by
      apply gapless least memberLeast greatest memberGreatest
      · rw [UInt64.le_iff_toNat_le, same]
        exact above
      · rw [UInt64.le_iff_toNat_le, same]
        exact below
    rw [← same]
    exact List.mem_map_of_mem member
  · intro all a memberA b memberB n above below
    rw [← List.mem_map_of_injective fun a b => UInt64.toNat_inj.mp]
    apply all
    · exact UInt64.le_iff_toNat_le.mp (UInt64.le_trans (range a memberA).1 above)
    · exact UInt64.le_iff_toNat_le.mp (UInt64.le_trans below (range b memberB).2)

theorem share_bounds {received expected : ℕ} (some : 0 < received) (most : received ≤ expected) :
    0 ≤ (1 - received / expected : ℚ) ∧ (1 - received / expected : ℚ) < 1 ∧
      ((1 - received / expected : ℚ) = 0 ↔ received = expected) := by
  have positive : (0 : ℚ) < expected := Nat.cast_pos.mpr (some.trans_le most)
  refine ⟨?_, ?_, ?_⟩
  · rw [sub_nonneg, div_le_one positive]
    exact Nat.cast_le.mpr most
  · apply sub_lt_self
    exact div_pos (Nat.cast_pos.mpr some) positive
  · rw [sub_eq_zero, eq_comm, div_eq_one_iff_eq positive.ne', Nat.cast_inj]

theorem IsWindow.estimates {w : LossWindow} {least greatest : UInt64} (isWindow : IsWindow w)
    (smallest : w.smallest? = some least) (largest : w.largest? = some greatest)
    (counted : span least greatest < 2 ^ 64) : Estimates w least greatest := by
  obtain ⟨memberLeast, below⟩ := List.min?_eq_some_iff.mp smallest
  obtain ⟨memberGreatest, above⟩ := List.max?_eq_some_iff.mp largest
  have range : ∀ n ∈ w.numbers, least ≤ n ∧ n ≤ greatest := fun n member => ⟨below n member, above n member⟩
  have places : ∀ n ∈ w.numbers.map UInt64.toNat, least.toNat ≤ n ∧ n ≤ greatest.toNat := by
    intro n member
    obtain ⟨m, among, rfl⟩ := List.mem_map.mp member
    exact ⟨UInt64.le_iff_toNat_le.mp (below m among), UInt64.le_iff_toNat_le.mp (above m among)⟩
  have distinct : (w.numbers.map UInt64.toNat).Nodup :=
    isWindow.nodup.map fun a b => UInt64.toNat_inj.mp
  have order := UInt64.le_iff_toNat_le.mp (below greatest memberGreatest)
  obtain ⟨most, full⟩ := length_of_interval distinct order places
  rw [List.length_map] at most full
  obtain ⟨nonneg, less, none⟩ := share_bounds (List.length_pos_of_mem memberLeast) most
  constructor
  case percentage =>
    exact percentage_eq (List.mem_map_of_mem memberLeast) (List.mem_map_of_mem memberGreatest) places counted
  case nonneg => exact nonneg
  case less => exact less
  case none_iff => exact none.trans (full.trans (isGapless_iff memberLeast memberGreatest range).symm)

/-- Whatever numbers have come, the window's numbers are distinct and no more than there is room for; the last one is
among them; none is ahead of a later one by more than the window is wide; and a number that is there already changes
nothing. Where the numbers from the least to the greatest can be counted, the share of missing ones is at least nought
and less than one, and it is nought exactly if the window has no gap. -/
theorem window_keeps_distinct (capacity : UInt64) (numbers : List UInt64) :
    let w := after capacity.toNat numbers
    w.capacity = max 2 capacity.toNat ∧ w.numbers.Nodup ∧ w.numbers.length ≤ max 2 capacity.toNat ∧
      (∀ last, numbers.getLast? = some last → last ∈ w.numbers) ∧
      w.numbers.Pairwise (fun early late => early ≤ saturatingAdd late (UInt64.ofNat (max 2 capacity.toNat))) ∧
      (∀ n ∈ w.numbers, w.record n = w) ∧
      ∀ least greatest, w.smallest? = some least → w.largest? = some greatest → span least greatest < 2 ^ 64 →
        Estimates w least greatest := by
  intro w
  have isWindow : IsWindow w := isWindow_after capacity.toNat numbers
  have size : w.capacity = max 2 capacity.toNat := capacity_after capacity.toNat numbers
  refine ⟨size, isWindow.nodup, size ▸ isWindow.few, ?_, ?_, fun n => record_known, fun _ _ => isWindow.estimates⟩
  · intro last ends
    obtain ⟨before, rfl⟩ := List.getLast?_eq_some_iff.mp ends
    have room := (isWindow_after capacity.toNat before).room
    have recorded := (records (after capacity.toNat before) last (Nat.le_of_succ_le room)).mem
    rw [← after_concat] at recorded
    exact recorded
  · rw [← size]
    exact isWindow.near

end LossWindow

end Onboard
