import Mathlib.Data.List.DropRight
import Onboard.Proofs.Network.Hearing
import Onboard.Proofs.Number.Difference

/-! Sets that overtake each other on the way are not lost, but the estimate can take one for lost. The window forgets
numbers in the order in which they came, whereas it spans them in their own order. If of two swapped numbers it has
forgotten the greater one, which came first, and still has the other, then the forgotten one is missing in its span.
While no pair is cut in this way, nothing is reported as lost. -/

namespace Onboard

/-- The numbers from one up to another in their order, but that neighbours may be swapped. -/
inductive Swapped : ℕ → List ℕ → ℕ → Prop where
  | nil : Swapped n [] n
  | inOrder : Swapped (n + 1) l next → Swapped n (n :: l) next
  | swapped : Swapped (n + 2) l next → Swapped n ((n + 1) :: n :: l) next

/-- A number that comes again is one that the window still has. -/
def LossWindow.Recalls (capacity : UInt64) (numbers : List UInt64) : Prop :=
  ∀ before n after, numbers = before ++ n :: after → n ∈ before → n ∈ (LossWindow.after capacity.toNat before).numbers

/-- A stream that loses no number, where neighbours may be swapped and a number may come again as long as the window
has it. -/
structure Reordered (capacity : UInt64) (numbers : List UInt64) : Prop where
  swapped : ∃ first next, Swapped first (numbers.eraseDups.map UInt64.toNat) next
  repeated : LossWindow.Recalls capacity numbers

/-- Each number between two that have come has come too. -/
def IsGapless (arrived : List UInt64) : Prop :=
  ∀ a ∈ arrived, ∀ b ∈ arrived, ∀ n, a ≤ n → n ≤ b → n ∈ arrived

/-- Of a swapped pair the window has forgotten the number that came first, and no other number since. -/
def CutsPair (capacity : UInt64) (arrived : List UInt64) : Prop :=
  ∃ before early late after, arrived.eraseDups = before ++ early :: late :: after ∧ late < early ∧
    after.length + 1 = max 2 capacity.toNat

namespace Swapped

theorem length_eq (swapped : Swapped first l next) : first + l.length = next := by
  induction swapped with
  | nil => rfl
  | inOrder rest ih =>
    rw [List.length_cons]
    omega
  | swapped rest ih =>
    rw [List.length_cons, List.length_cons]
    omega

theorem mem_iff (swapped : Swapped first l next) : n ∈ l ↔ first ≤ n ∧ n < next := by
  induction swapped with
  | nil => simp
  | inOrder rest ih =>
    have := rest.length_eq
    rw [List.mem_cons, ih]
    omega
  | swapped rest ih =>
    have := rest.length_eq
    rw [List.mem_cons, List.mem_cons, ih]
    omega

theorem close (swapped : Swapped first l next) : l.Pairwise fun a b => a ≤ b + 1 := by
  induction swapped with
  | nil => exact .nil
  | inOrder rest ih =>
    refine ih.cons fun b member => ?_
    have := (rest.mem_iff.mp member).1
    omega
  | swapped rest ih =>
    refine (ih.cons fun b member => ?_).cons fun b member => ?_
    · have := (rest.mem_iff.mp member).1
      omega
    · rcases List.mem_cons.mp member with rfl | member
      · exact le_rfl
      · have := (rest.mem_iff.mp member).1
        omega

/-- Swapped numbers fall apart into two parts of the kind, unless a pair is cut. -/
theorem split (swapped : Swapped first (l ++ m) next) :
    (∃ mid, Swapped first l mid ∧ Swapped mid m next) ∨
      ∃ late early rest, l = early ++ [late + 1] ∧ m = late :: rest ∧ Swapped first early late ∧
        Swapped (late + 2) rest next := by
  generalize whole : l ++ m = numbers at swapped
  induction swapped generalizing l with
  | nil =>
    obtain ⟨rfl, rfl⟩ := List.append_eq_nil_iff.mp whole
    exact .inl ⟨_, .nil, .nil⟩
  | inOrder rest ih =>
    rcases List.append_eq_cons_iff.mp whole with ⟨rfl, rfl⟩ | ⟨l, rfl, same⟩
    · exact .inl ⟨_, .nil, .inOrder rest⟩
    · rcases ih same.symm with ⟨mid, left, right⟩ | ⟨late, early, rest, rfl, rfl, left, right⟩
      · exact .inl ⟨mid, .inOrder left, right⟩
      · exact .inr ⟨late, _ :: early, rest, rfl, rfl, .inOrder left, right⟩
  | swapped rest ih =>
    rcases List.append_eq_cons_iff.mp whole with ⟨rfl, rfl⟩ | ⟨l, rfl, same⟩
    · exact .inl ⟨_, .nil, .swapped rest⟩
    rcases List.append_eq_cons_iff.mp same.symm with ⟨rfl, rfl⟩ | ⟨l, rfl, others⟩
    · exact .inr ⟨_, [], _, rfl, rfl, .nil, rest⟩
    · rcases ih others.symm with ⟨mid, left, right⟩ | ⟨late, early, rest, rfl, rfl, left, right⟩
      · exact .inl ⟨mid, .swapped left, right⟩
      · exact .inr ⟨late, _ :: _ :: early, rest, rfl, rfl, .swapped left, right⟩

end Swapped

theorem eraseDups_concat (numbers : List UInt64) (number : UInt64) :
    (numbers ++ [number]).eraseDups =
      if number ∈ numbers then numbers.eraseDups else numbers.eraseDups ++ [number] := by
  rw [List.eraseDups_append, List.removeAll, List.filter_singleton]
  by_cases known : number ∈ numbers <;> simp [known, List.eraseDups_cons]

theorem rtake_concat_rtake (l : List α) (x : α) (n : ℕ) : (l.rtake n ++ [x]).rtake n = (l ++ [x]).rtake n := by
  cases n with
  | zero => rw [List.rtake_zero, List.rtake_zero]
  | succ n =>
    simp only [List.rtake_eq_reverse_take_reverse, List.reverse_append, List.reverse_cons, List.reverse_nil,
      List.nil_append, List.reverse_reverse, List.singleton_append, List.take_succ_cons, List.take_take]
    simp

namespace LossWindow
variable {w : LossWindow} {number : UInt64} {numbers : List UInt64}

theorem capacity_after (capacity : ℕ) (numbers : List UInt64) :
    (after capacity numbers).capacity = max 2 capacity := by
  induction numbers using List.reverseRecOn with
  | nil => rfl
  | append_singleton numbers number ih =>
    rw [after_concat, record]
    split <;> exact ih

theorem isRestart_of_near (few : w.capacity < 2 ^ 64)
    (near : ∀ m ∈ w.numbers, m.toNat ≤ number.toNat + w.capacity) : w.isRestart number = false := by
  unfold isRestart largest?
  split
  · next largest found =>
    have order := near largest (List.max?_eq_some_iff.mp found).1
    have bound := largest.toNat_lt
    have same : (UInt64.ofNat w.capacity).toNat = w.capacity := UInt64.toNat_ofNat_of_lt few
    rw [decide_eq_false_iff_not, UInt64.not_lt, UInt64.le_iff_toNat_le, saturatingAdd, same]
    split
    · next fits =>
      rw [UInt64.toNat_add, same, Nat.mod_eq_of_lt fits]
      exact order
    · change largest.toNat ≤ 0xFFFFFFFFFFFFFFFF
      omega
  · rfl

theorem Recalls.arrived {capacity : UInt64} {arrived later : List UInt64}
    (recalls : Recalls capacity (arrived ++ later)) : Recalls capacity arrived := by
  rintro before n after rfl
  exact recalls before n (after ++ later) (by simp)

/-- As long as no number is so far behind another that it passes for a restart, and none comes again that the window
has forgotten, the window has the last of the numbers in the order in which each came first. -/
theorem numbers_after {capacity : UInt64} (repeated : Recalls capacity numbers)
    (near : numbers.eraseDups.Pairwise fun a b => a.toNat ≤ b.toNat + max 2 capacity.toNat) :
    (after capacity.toNat numbers).numbers = numbers.eraseDups.rtake (max 2 capacity.toNat) := by
  induction numbers using List.reverseRecOn with
  | nil => rw [List.eraseDups_nil, List.rtake_nil]; rfl
  | append_singleton numbers number ih =>
    rw [after_concat, record]
    rw [eraseDups_concat] at near ⊢
    by_cases known : number ∈ numbers
    · -- The window has it still, and stays as it is.
      rw [if_pos known] at near ⊢
      rw [if_pos (List.contains_iff_mem.mpr (repeated numbers number [] rfl known))]
      exact ih repeated.arrived near
    · rw [if_neg known] at near ⊢
      obtain ⟨nearBefore, -, nearLast⟩ := List.pairwise_append.mp near
      have size := capacity_after capacity.toNat numbers
      have fresh : (after capacity.toNat numbers).isRestart number = false := by
        refine isRestart_of_near (size.trans_lt (Nat.max_lt.mpr ⟨by decide, capacity.toNat_lt⟩)) fun m member => ?_
        rw [size]
        exact nearLast m (List.mem_eraseDups.mpr (mem_after member)) number (List.mem_singleton_self number)
      rw [if_neg fun member => known (mem_after (List.contains_iff_mem.mp member)), fresh, ← rtake_concat_rtake,
        ← ih repeated.arrived nearBefore, ← size]
      rfl

/-- The loss in percent when so many of so many expected numbers have been received. -/
def lossOf (received expected : ℕ) : Float :=
  Double.min (Double.max ((1.0 - Double.ofNat received / Double.ofNat expected) * 100.0) 0.0) 100.0

theorem percentage_eq {least greatest : ℕ} (memberLeast : least ∈ w.numbers.map UInt64.toNat)
    (memberGreatest : greatest ∈ w.numbers.map UInt64.toNat)
    (range : ∀ n ∈ w.numbers.map UInt64.toNat, least ≤ n ∧ n ≤ greatest) (few : greatest - least + 1 < 2 ^ 64) :
    w.percentage = .ok (lossOf w.numbers.length (greatest - least + 1)) := by
  obtain ⟨smallest, memberSmallest, rfl⟩ := List.mem_map.mp memberLeast
  obtain ⟨largest, memberLargest, rfl⟩ := List.mem_map.mp memberGreatest
  have bounds : ∀ n ∈ w.numbers, smallest ≤ n ∧ n ≤ largest := fun n member => range _ (List.mem_map_of_mem member)
  have foundSmallest : w.numbers.min? = some smallest :=
    List.min?_eq_some_iff.mpr ⟨memberSmallest, fun n member => (bounds n member).1⟩
  have foundLargest : w.numbers.max? = some largest :=
    List.max?_eq_some_iff.mpr ⟨memberLargest, fun n member => (bounds n member).2⟩
  have difference := UInt64.toNat_sub_of_le _ _ (bounds largest memberLargest).1
  have expected : addUInt64 (largest - smallest) 1 = .ok (largest - smallest + 1) := by
    rw [addUInt64, if_pos]
    rw [difference]
    exact few
  have counted : (largest - smallest + 1).toNat = largest.toNat - smallest.toNat + 1 := by
    rw [UInt64.toNat_add, difference]
    exact Nat.mod_eq_of_lt few
  unfold percentage smallest? largest?
  rw [foundSmallest, foundLargest]
  dsimp only
  rw [expected]
  change Except.ok (lossOf _ (largest - smallest + 1).toNat) = _
  rw [counted]

section Floats
open Double (scaled Rounds)

theorem lossOf_self (some : 0 < n) (few : n < 2 ^ 64) : lossOf n n = 0.0 := by
  have rounds : Rounds (Double.ofNat n) n := Double.rounds_ofRatio some (Double.natCast_lt_overflow few)
  have positive : 0.0 < Double.ofNat n := rounds.pos (Nat.cast_pos.mpr some)
  unfold lossOf
  rw [Double.self_div_self positive rounds.finite]
  decide

/-- A quotient of neighbours is rounded to a number that is still clear of one. -/
theorem gap_of_rounds {q : Float} (few : n + 1 < 2 ^ 53) (rounds : Rounds q (n / (n + 1 : ℕ))) :
    1 / 2 ^ 105 ≤ 1 - (scaled q).value := by
  have whole : (n + 1 : ℚ) ≤ 2 ^ 53 := by exact_mod_cast few.le
  have lower : (n + 2 : ℚ) ≤ 2 ^ 53 := by exact_mod_cast few
  have near := (mul_le_mul_of_nonneg_left (le_abs_self _) (by norm_num)).trans rounds.near
  have share : (n / (n + 1 : ℕ) : ℚ) * (n + 1) = n := by
    push_cast
    exact div_mul_cancel₀ _ (by positivity)
  have scaled_near := mul_le_mul_of_nonneg_right near (by positivity : (0 : ℚ) ≤ n + 1)
  have gap : 2 ≤ (n + 1) * (2 ^ 53 * (1 - (scaled q).value)) := by
    linear_combination scaled_near + lower + (2 ^ 53 + 1) * share
  have clear : 0 < 2 ^ 53 * (1 - (scaled q).value) := pos_of_mul_pos_right (two_pos.trans_le gap) (by positivity)
  have bound := gap.trans (mul_le_mul_of_nonneg_right whole clear.le)
  norm_num at bound ⊢
  linarith

theorem clamp_pos {x : Float} (positive : 0.0 < x) : 0.0 < Double.min (Double.max x 0.0) 100.0 := by
  have number := (Double.number_of_lt positive).2
  have larger : Double.max x 0.0 = x := by
    rw [Double.max, if_neg (Bool.eq_false_iff.mp number), if_neg (by decide), if_neg]
    exact fun less => Double.lt_irrefl x (Double.lt_trans less positive)
  rw [larger, Double.min, if_neg (Bool.eq_false_iff.mp number), if_neg (by decide)]
  split
  · decide
  · exact positive

theorem bounds_of_neighbours (some : 0 < n) : (1 / 2 : ℚ) ≤ n / (n + 1 : ℕ) ∧ (n / (n + 1 : ℕ) : ℚ) < 1 := by
  have least : (1 : ℚ) ≤ n := Nat.one_le_cast.mpr some
  push_cast
  rw [div_le_div_iff₀ two_pos (by positivity), div_lt_one (by positivity)]
  constructor <;> linarith

/-- One number that is missing is seen, as long as doubles tell the counts apart. -/
theorem lossOf_pos (some : 0 < n) (few : n + 1 < 2 ^ 53) : 0.0 < lossOf n (n + 1) := by
  have received := Double.isWhole_ofRatio (Nat.lt_of_succ_lt few)
  have expected := Double.isWhole_ofRatio few
  have one : Double.IsWhole 1.0 1 := Double.isWhole_ofRatio (n := 1) (by decide)
  have hundred : Double.IsWhole 100.0 100 := Double.isWhole_ofRatio (n := 100) (by decide)
  have limit : (200 : ℚ) < BinaryFormat.overflow := by exact_mod_cast Double.natCast_lt_overflow (n := 200) (by decide)
  have tiny : (2 : ℚ) ^ (-1000 : ℤ) ≤ 1 / 2 ^ 106 := (two_zpow_le (e := -106) (by decide)).trans_eq (by norm_num)
  obtain ⟨half, most⟩ := bounds_of_neighbours some
  have quotient := Double.rounds_div received.finite expected.finite received.isNegative expected.isNegative
  rw [received.value, expected.value] at quotient
  have quotient := quotient (tiny.trans (by linarith)) (by linarith)
  have gap := gap_of_rounds few quotient
  have positive := quotient.value_pos (by linarith)
  have difference := Double.rounds_sub one.finite quotient.finite one.isNegative quotient.isNegative positive
  rw [one.value, Nat.cast_one] at difference
  have difference := difference (tiny.trans (by linarith)) (by linarith)
  have clear := difference.between
  have share := Double.rounds_mul difference.finite hundred.finite difference.isNegative hundred.isNegative
  rw [hundred.value] at share
  refine clamp_pos ((share (tiny.trans ?_) ?_).pos ?_) <;> push_cast <;> linarith

end Floats

end LossWindow

theorem mem_numbers_iff {arrived : List UInt64} :
    number.toNat ∈ arrived.eraseDups.map UInt64.toNat ↔ number ∈ arrived := by
  rw [List.mem_map_of_injective fun a b => UInt64.toNat_inj.mp, List.mem_eraseDups]

theorem IsGapless.mem_between {arrived : List UInt64} (gapless : IsGapless arrived)
    (memberA : a ∈ arrived.eraseDups.map UInt64.toNat) (memberB : b ∈ arrived.eraseDups.map UInt64.toNat)
    (above : a ≤ n) (below : n ≤ b) : n ∈ arrived.eraseDups.map UInt64.toNat := by
  obtain ⟨x, memberX, rfl⟩ := List.mem_map.mp memberA
  obtain ⟨y, memberY, rfl⟩ := List.mem_map.mp memberB
  have exactly : (UInt64.ofNat n).toNat = n := UInt64.toNat_ofNat_of_lt (below.trans_lt y.toNat_lt)
  rw [← exactly, mem_numbers_iff]
  apply gapless x (List.mem_eraseDups.mp memberX) y (List.mem_eraseDups.mp memberY)
  · rw [UInt64.le_iff_toNat_le, exactly]
    exact above
  · rw [UInt64.le_iff_toNat_le, exactly]
    exact below

theorem LossWindow.percentage_swapped {w : LossWindow} (swapped : Swapped first (w.numbers.map UInt64.toNat) next)
    (few : w.numbers.length < 2 ^ 64) : w.percentage = .ok 0.0 := by
  have size := swapped.length_eq
  rw [List.length_map] at size
  rcases Nat.eq_zero_or_pos w.numbers.length with none | some
  · unfold percentage smallest? largest?
    rw [List.length_eq_zero_iff.mp none]
    rfl
  · have least := swapped.mem_iff.mpr ⟨le_rfl, (by omega : first < next)⟩
    have greatest := swapped.mem_iff.mpr (⟨by omega, by omega⟩ : first ≤ next - 1 ∧ next - 1 < next)
    have expected : next - 1 - first + 1 = w.numbers.length := by omega
    rw [percentage_eq least greatest, expected, lossOf_self some few]
    · intro n member
      have := swapped.mem_iff.mp member
      omega
    · rw [expected]
      exact few

/-- A window that lacks just the second of its numbers. -/
theorem LossWindow.percentage_cut {w : LossWindow} (numbers : w.numbers.map UInt64.toNat = late :: rest)
    (swapped : Swapped (late + 2) rest next) (some : rest ≠ []) (few : w.numbers.length + 1 < 2 ^ 53) :
    ∃ loss, w.percentage = .ok loss ∧ 0.0 < loss := by
  have size := swapped.length_eq
  have length : w.numbers.length = rest.length + 1 := by
    rw [← List.length_map, numbers, List.length_cons]
  have more := List.length_pos_of_ne_nil some
  have least : late ∈ w.numbers.map UInt64.toNat := numbers ▸ List.mem_cons_self
  have greatest : next - 1 ∈ w.numbers.map UInt64.toNat := by
    rw [numbers]
    exact List.mem_cons_of_mem _ (swapped.mem_iff.mpr ⟨by omega, by omega⟩)
  have expected : next - 1 - late + 1 = w.numbers.length + 1 := by omega
  refine ⟨_, percentage_eq least greatest ?_ ?_, ?_⟩
  · intro n member
    rw [numbers] at member
    rcases List.mem_cons.mp member with rfl | later
    · omega
    · have := swapped.mem_iff.mp later
      omega
  · omega
  · rw [expected]
    exact lossOf_pos (by omega) few

section Streams
variable {capacity : UInt64} {arrived later : List UInt64}

/-- Where no number is missing, the numbers so far are swapped ones too: the first of a pair can be the last of them
only if it is all of them. -/
theorem Reordered.swapped_arrived (stream : Reordered capacity (arrived ++ later)) (gapless : IsGapless arrived) :
    ∃ first next, Swapped first (arrived.eraseDups.map UInt64.toNat) next := by
  obtain ⟨first, next, swapped⟩ := stream.swapped
  rw [List.eraseDups_append, List.map_append] at swapped
  rcases swapped.split with ⟨mid, left, -⟩ | ⟨late, early, rest, same, -, left, -⟩
  · exact ⟨first, mid, left⟩
  · cases early with
    | nil =>
      rw [same]
      exact ⟨late + 1, late + 2, .inOrder .nil⟩
    | cons n early =>
      have size := left.length_eq
      rw [List.length_cons] at size
      have member : first ∈ n :: early := left.mem_iff.mpr ⟨le_rfl, by omega⟩
      -- The greater of a pair has come, and with smaller numbers before it so has the other.
      have other : late ∈ n :: early ++ [late + 1] := by
        rw [← same]
        apply gapless.mem_between (a := first) (b := late + 1)
        · exact same ▸ List.mem_append_left _ member
        · exact same ▸ List.mem_append_right _ (List.mem_singleton_self (late + 1))
        · omega
        · omega
      rcases List.mem_append.mp other with before | last
      · exact absurd (left.mem_iff.mp before).2 (Nat.lt_irrefl _)
      · exact absurd (List.mem_singleton.mp last) (by omega)

theorem Reordered.numbers_arrived (stream : Reordered capacity (arrived ++ later))
    (swapped : Swapped first (arrived.eraseDups.map UInt64.toNat) next) :
    (LossWindow.after capacity.toNat arrived).numbers = arrived.eraseDups.rtake (max 2 capacity.toNat) := by
  refine LossWindow.numbers_after stream.repeated.arrived ?_
  refine (List.pairwise_map.mp swapped.close).imp fun near => near.trans ?_
  omega

section Window
variable {w : LossWindow} (swapped : Swapped first (arrived.eraseDups.map UInt64.toNat) next)
  (window : w.numbers = arrived.eraseDups.rtake (max 2 capacity.toNat))
include swapped window

/-- Unless a pair is cut, the window has swapped numbers again. -/
theorem percentage_of_whole (whole : ¬ CutsPair capacity arrived) : w.percentage = .ok 0.0 := by
  have bound := capacity.toNat_lt
  have parts := List.take_append_drop (arrived.eraseDups.length - max 2 capacity.toNat) arrived.eraseDups
  have size := List.length_drop (i := arrived.eraseDups.length - max 2 capacity.toNat) (l := arrived.eraseDups)
  unfold List.rtake at window
  rw [← parts, List.map_append] at swapped
  rcases swapped.split with ⟨mid, -, right⟩ | ⟨number, earlier, rest, forgotten, kept, -, -⟩
  · rw [← window] at right size
    exact LossWindow.percentage_swapped right (by omega)
  · obtain ⟨before, last, cutBefore, -, rest⟩ := List.map_eq_append_iff.mp forgotten
    obtain ⟨early, rfl, sameEarly⟩ := List.map_eq_singleton_iff.mp rest
    obtain ⟨late, after, cutAfter, sameLate, -⟩ := List.map_eq_cons_iff.mp kept
    rw [cutBefore, cutAfter] at parts
    refine absurd ⟨before, early, late, after, by rw [← parts]; simp, ?_, ?_⟩ whole
    · rw [UInt64.lt_iff_toNat_lt]
      omega
    · have more := congrArg List.length cutBefore
      rw [List.length_take, List.length_append, List.length_singleton] at more
      rw [cutAfter, List.length_cons] at size
      omega

theorem percentage_of_cut (cut : CutsPair capacity arrived) (few : capacity.toNat + 1 < 2 ^ 53) :
    ∃ loss, w.percentage = .ok loss ∧ 0.0 < loss := by
  obtain ⟨before, early, late, after, whole, order, size⟩ := cut
  have parts : arrived.eraseDups = (before ++ [early]) ++ late :: after := by simp [whole]
  have length := congrArg List.length parts
  rw [List.length_append, List.length_cons, size] at length
  rw [List.rtake, length, Nat.add_sub_cancel, parts, List.drop_left] at window
  rw [parts, List.map_append] at swapped
  rcases swapped.split with ⟨mid, left, right⟩ | ⟨number, earlier, rest, -, kept, -, swapped⟩
  · -- Numbers before a place at which no pair is cut are smaller than those behind it.
    have below := left.mem_iff.mp (List.mem_map_of_mem (List.mem_append_right before (List.mem_singleton_self early)))
    have above := right.mem_iff.mp (List.mem_map_of_mem List.mem_cons_self)
    rw [UInt64.lt_iff_toNat_lt] at order
    omega
  · refine LossWindow.percentage_cut (window ▸ kept) swapped ?_ ?_
    · rintro rfl
      have none := congrArg List.length kept
      rw [List.length_map, List.length_singleton, List.length_cons] at none
      omega
    · rw [window, List.length_cons]
      omega

end Window

/-- In a stream that loses no number, at an arrival up to which none is missing: no loss is reported unless the window
has cut a pair, and then some is, as long as doubles tell the counts apart. -/
theorem loss_reported_iff_cut (stream : Reordered capacity (arrived ++ later)) (gapless : IsGapless arrived) :
    (¬ CutsPair capacity arrived → (LossWindow.after capacity.toNat arrived).percentage = .ok 0.0) ∧
      (CutsPair capacity arrived → capacity.toNat + 1 < 2 ^ 53 →
        ∃ loss, (LossWindow.after capacity.toNat arrived).percentage = .ok loss ∧ 0.0 < loss) := by
  obtain ⟨first, next, swapped⟩ := stream.swapped_arrived gapless
  have window := stream.numbers_arrived swapped
  constructor
  · intro whole
    exact percentage_of_whole swapped window whole
  · intro cut few
    exact percentage_of_cut swapped window cut few

end Streams

theorem IsGapless.of_swapped {arrived : List UInt64}
    (swapped : Swapped first (arrived.eraseDups.map UInt64.toNat) next) : IsGapless arrived := by
  intro a memberA b memberB n above below
  rw [UInt64.le_iff_toNat_le] at above below
  rw [← mem_numbers_iff, swapped.mem_iff] at memberA memberB ⊢
  omega

namespace Reordered
variable {capacity : UInt64} {numbers : List UInt64}

theorem of_nodup (swapped : Swapped first (numbers.eraseDups.map UInt64.toNat) next) (nodup : numbers.Nodup) :
    Reordered capacity numbers where
  swapped := ⟨first, next, swapped⟩
  repeated before n after same known := by
    subst same
    exact absurd List.mem_cons_self (List.disjoint_of_nodup_append nodup known)

theorem again (stream : Reordered capacity numbers)
    (known : number ∈ (LossWindow.after capacity.toNat numbers).numbers) :
    Reordered capacity (numbers ++ [number]) where
  swapped := by
    rw [eraseDups_concat, if_pos (LossWindow.mem_after known)]
    exact stream.swapped
  repeated before n after same member := by
    rcases concat_split same with ⟨rfl, rfl, -⟩ | ⟨between, rfl, -⟩
    · exact known
    · exact stream.repeated before n between rfl member

end Reordered

/-- With room for three numbers neither a swapped pair nor a repeated number is taken for a loss. -/
theorem no_loss_of_three : Reordered 3 ([1, 0, 2, 0] ++ []) ∧ IsGapless [1, 0, 2, 0] ∧ ¬ CutsPair 3 [1, 0, 2, 0] ∧
    (LossWindow.after 3 [1, 0, 2, 0]).percentage = .ok 0.0 := by
  have swapped : Swapped 0 [1, 0, 2] 3 := .swapped (.inOrder .nil)
  have first : Reordered 3 [1, 0, 2] := .of_nodup swapped (by decide)
  have stream : Reordered 3 ([1, 0, 2, 0] ++ []) := first.again (by decide)
  have gapless : IsGapless [1, 0, 2, 0] := .of_swapped swapped
  have whole : ¬ CutsPair 3 [1, 0, 2, 0] := by
    rintro ⟨before, early, late, after, same, -, size⟩
    have length := congrArg List.length same
    rw [List.length_append, List.length_cons, List.length_cons, size] at length
    change 3 = before.length + (3 + 1) at length
    omega
  exact ⟨stream, gapless, whole, (loss_reported_iff_cut stream gapless).1 whole⟩

/-- With room for two, the second of three numbers is taken for lost as soon as the third has come, if it overtook the
first. -/
theorem swapped_pair_taken_for_loss : ¬ ∀ (capacity : UInt64) (arrived later : List UInt64),
    Reordered capacity (arrived ++ later) → IsGapless arrived →
      (LossWindow.after capacity.toNat arrived).percentage = .ok 0.0 := by
  intro promised
  have swapped : Swapped 1 [2, 1, 3] 4 := .swapped (.inOrder .nil)
  have stream : Reordered 2 ([2, 1, 3] ++ []) := .of_nodup swapped (by decide)
  have lossless := promised 2 [2, 1, 3] [] stream (.of_swapped swapped)
  exact absurd lossless (by decide +kernel)

end Onboard
