import Onboard.Loop.Pacing

/-! How deadlines move over a run of waits. Each moves on by at least an interval, and by exactly one unless it is moved
up to now, so that deadlines that are never moved stand at multiples of the interval. None is more than an interval
behind the clock, so that a delay of any length is followed by at most one wake without a wait. -/

namespace Onboard

def IsInt64 (n : Int) : Prop :=
  -0x8000000000000000 ≤ n ∧ n < 0x8000000000000000

instance (n : Int) : Decidable (IsInt64 n) :=
  inferInstanceAs (Decidable (_ ∧ _))

theorem addInt64_of_isInt64 {a b : Int} (sum : IsInt64 (a + b)) : addInt64 a b = .ok (a + b) :=
  if_pos sum

theorem addInt64_of_not_isInt64 {a b : Int} (sum : ¬ IsInt64 (a + b)) : addInt64 a b = .error .addOverflow :=
  if_neg sum

namespace Deadline
variable {d : Deadline} {interval : Int}

/-- The nanoseconds are those within a second. -/
def IsNormal (d : Deadline) : Prop :=
  0 ≤ d.nsec ∧ d.nsec < nanosPerSecond

instance (d : Deadline) : Decidable d.IsNormal :=
  inferInstanceAs (Decidable (_ ∧ _))

/-- The sums of a move by an interval have 64 bits. -/
structure Fits (d : Deadline) (interval : Int) : Prop where
  nsec : IsInt64 (d.nsec + interval)
  sec : IsInt64 (d.sec + (d.nsec + interval) / nanosPerSecond)

instance (d : Deadline) (interval : Int) : Decidable (d.Fits interval) :=
  decidable_of_iff (IsInt64 (d.nsec + interval) ∧ IsInt64 (d.sec + (d.nsec + interval) / nanosPerSecond))
    ⟨fun both => ⟨both.1, both.2⟩, fun fits => ⟨fits.nsec, fits.sec⟩⟩

theorem isNormal_ofNanos (nanos : Int) : (ofNanos nanos).IsNormal :=
  ⟨Int.emod_nonneg _ (by decide), Int.emod_lt_of_pos _ (by decide)⟩

theorem toNanos_ofNanos (nanos : Int) : (ofNanos nanos).toNanos = nanos :=
  Int.ediv_mul_add_emod nanos nanosPerSecond

/-- Seconds and nanoseconds are determined by their sum. -/
theorem ofNanos_toNanos (normal : d.IsNormal) : ofNanos d.toNanos = d := by
  obtain ⟨sec, nsec⟩ := d
  obtain ⟨low, high⟩ := normal
  change 0 ≤ nsec at low
  change nsec < 1000000000 at high
  simp only [ofNanos, toNanos, mk.injEq, nanosPerSecond]
  omega

theorem eq_of_toNanos {e : Deadline} (normalD : d.IsNormal) (normalE : e.IsNormal) (same : d.toNanos = e.toNanos) :
    d = e := by
  rw [← ofNanos_toNanos normalD, same, ofNanos_toNanos normalE]

/-- Carrying the whole seconds is what brings a sum into its normal form. -/
theorem ofNanos_add (d : Deadline) (interval : Int) : ofNanos (d.toNanos + interval) =
    ⟨d.sec + (d.nsec + interval) / nanosPerSecond, (d.nsec + interval) % nanosPerSecond⟩ := by
  have positive : (nanosPerSecond : Int) ≠ 0 := by decide
  rw [ofNanos, toNanos, Int.add_assoc, Int.add_comm (d.sec * _), Int.add_mul_ediv_right _ _ positive,
    Int.add_mul_emod_self_right, Int.add_comm (_ / _)]

theorem advance_of_fits (fits : d.Fits interval) : d.advance interval = .ok (ofNanos (d.toNanos + interval)) := by
  have carried := addInt64_of_isInt64 fits.sec
  rw [advance, addInt64_of_isInt64 fits.nsec, ofNanos_add]
  change (do let sec ← addInt64 d.sec _; return _) = _
  rw [carried]
  rfl

theorem advance_of_not_fits (overflows : ¬ d.Fits interval) : d.advance interval = .error .addOverflow := by
  rw [advance]
  by_cases nsec : IsInt64 (d.nsec + interval)
  · have carried := addInt64_of_not_isInt64 fun sec => overflows ⟨nsec, sec⟩
    rw [addInt64_of_isInt64 nsec]
    change (do let sec ← addInt64 d.sec _; return _) = _
    rw [carried]
    rfl
  · rw [addInt64_of_not_isInt64 nsec]
    rfl

end Deadline

namespace Schedule
variable {previous now : Deadline} {interval : Int} {nows : List Deadline}

/-- The schedule if sums could be of any size. -/
def moved (previous : Deadline) (interval : Int) (now : Deadline) : Schedule :=
  let lag := now.toNanos - (previous.toNanos + interval)
  ⟨if interval < lag then now else .ofNanos (previous.toNanos + interval), 0 < lag, interval < lag⟩

/-- The sums of a run of waits have 64 bits. -/
def RunFits (previous : Deadline) (interval : Int) : List Deadline → Prop
  | [] => True
  | now :: rest => previous.Fits interval ∧ RunFits (moved previous interval now).next interval rest

instance runFitsDecidable (interval : Int) : (nows : List Deadline) → (previous : Deadline) →
    Decidable (RunFits previous interval nows)
  | [], _ => .isTrue trivial
  | now :: rest, previous =>
    have := runFitsDecidable interval rest (moved previous interval now).next
    inferInstanceAs (Decidable (_ ∧ _))

/-- The schedules of waits that begin one after the other, each with the deadline of the one before. -/
def run (previous : Deadline) (interval : Int) : List Deadline → Except Fault (List Schedule)
  | [] => .ok []
  | now :: rest => do
    let s ← after previous interval now
    let later ← run s.next interval rest
    return s :: later

/-- The deadlines before and after each wait of a run. -/
def deadlines (start : Deadline) (schedules : List Schedule) : List Deadline :=
  start :: schedules.map next

theorem after_of_fits (fits : previous.Fits interval) (now : Deadline) :
    after previous interval now = .ok (moved previous interval now) := by
  rw [after, Deadline.advance_of_fits fits]
  change Except.ok (Schedule.mk _ _ _) = _
  rw [Deadline.toNanos_ofNanos]
  rfl

theorem after_of_not_fits (overflows : ¬ previous.Fits interval) (now : Deadline) :
    after previous interval now = .error .addOverflow := by
  rw [after, Deadline.advance_of_not_fits overflows]
  rfl

/-- What one wait that begins at `now` makes of the deadline before it. -/
structure KeepsPace (previous : Deadline) (interval : Int) (now : Deadline) (s : Schedule) : Prop where
  normal : s.next.IsNormal
  interval_le : interval ≤ s.next.toNanos - previous.toNanos
  moves_iff : s.next.toNanos - previous.toNanos = interval ↔ s.resynced = false
  in_time : s.overrun = false → now.toNanos ≤ s.next.toNanos
  lag_le : now.toNanos - s.next.toNanos ≤ interval
  resynced_iff : s.resynced = true ↔ interval < now.toNanos - (previous.toNanos + interval)
  now_iff : s.next = now ↔ s.resynced = true ∨ now.toNanos = previous.toNanos + interval
  /-- Another wait at once is in time. -/
  calm : s.next.Fits interval → ∃ t, after s.next interval now = .ok t ∧ t.overrun = false

/-- Every wait of a run keeps pace. -/
def RunKeepsPace (start : Deadline) (interval : Int) (nows : List Deadline) (schedules : List Schedule) : Prop :=
  ∀ (i : Nat) (d now : Deadline) (s : Schedule), (deadlines start schedules)[i]? = some d → nows[i]? = some now →
    schedules[i]? = some s → KeepsPace d interval now s

theorem keepsPace_moved (normal : now.IsNormal) (positive : 1 ≤ interval) :
    KeepsPace previous interval now (moved previous interval now) := by
  have nanos : (moved previous interval now).next.toNanos =
      if interval < now.toNanos - (previous.toNanos + interval) then now.toNanos
      else previous.toNanos + interval := by
    rw [moved]
    split
    · rfl
    · exact Deadline.toNanos_ofNanos _
  have nextNormal : (moved previous interval now).next.IsNormal := by
    rw [moved]
    split
    · exact normal
    · exact Deadline.isNormal_ofNanos _
  have resynced : (moved previous interval now).resynced = true ↔
      interval < now.toNanos - (previous.toNanos + interval) := decide_eq_true_iff
  have overrun : (moved previous interval now).overrun = false ↔
      ¬ 0 < now.toNanos - (previous.toNanos + interval) := decide_eq_false_iff_not
  have behind : now.toNanos - (moved previous interval now).next.toNanos ≤ interval := by
    rw [nanos]
    split <;> omega
  refine ⟨nextNormal, ?_, ?_, ?_, behind, resynced, ?_, ?_⟩
  · rw [nanos]
    split <;> omega
  · rw [← Bool.not_eq_true, resynced, nanos]
    split <;> omega
  · rw [overrun, nanos]
    split <;> omega
  · have same : (moved previous interval now).next = now ↔
        (moved previous interval now).next.toNanos = now.toNanos :=
      ⟨congrArg _, Deadline.eq_of_toNanos nextNormal normal⟩
    rw [same, resynced, nanos]
    split <;> omega
  · intro fits
    refine ⟨_, after_of_fits fits now, decide_eq_false ?_⟩
    omega

/-- The waits of a run, each with the deadline it begins from and the time at which it begins. -/
theorem run_of_fits (positive : 1 ≤ interval) (normal : ∀ now ∈ nows, now.IsNormal)
    (fits : RunFits previous interval nows) : ∃ schedules, run previous interval nows = .ok schedules ∧
      schedules.length = nows.length ∧ RunKeepsPace previous interval nows schedules := by
  induction nows generalizing previous with
  | nil => exact ⟨[], rfl, rfl, nofun⟩
  | cons now rest ih =>
    rw [List.forall_mem_cons] at normal
    obtain ⟨first, later⟩ := fits
    obtain ⟨schedules, runs, length, keep⟩ := ih normal.2 later
    refine ⟨moved previous interval now :: schedules, ?_, congrArg Nat.succ length, ?_⟩
    · rw [run, after_of_fits first]
      change (do let later ← run _ interval rest; return _) = _
      rw [runs]
      rfl
    · rintro (_ | i) d other s before here result
      · cases before
        cases here
        cases result
        exact keepsPace_moved normal.1 positive
      · exact keep i d other s before here result

theorem run_of_not_fits (overflows : ¬ RunFits previous interval nows) :
    run previous interval nows = .error .addOverflow := by
  induction nows generalizing previous with
  | nil => exact absurd trivial overflows
  | cons now rest ih =>
    by_cases first : previous.Fits interval
    · rw [run, after_of_fits first]
      change (do let later ← run _ interval rest; return _) = _
      rw [ih fun later => overflows ⟨first, later⟩]
      rfl
    · rw [run, after_of_not_fits first]
      rfl

/-- As long as no deadline is moved up to now, they are equally far apart. -/
theorem toNanos_deadline {start : Deadline} {schedules : List Schedule}
    (keep : RunKeepsPace start interval nows schedules) (length : schedules.length = nows.length) {n : Nat}
    {d : Deadline}
    (reached : (deadlines start schedules)[n]? = some d) (steady : ∀ s ∈ schedules.take n, s.resynced = false) :
    d.toNanos = start.toNanos + n * interval := by
  induction n generalizing d with
  | zero =>
    cases reached
    omega
  | succ n ih =>
    rw [deadlines, List.getElem?_cons_succ, List.getElem?_map, Option.map_eq_some_iff] at reached
    obtain ⟨s, result, rfl⟩ := reached
    have bound : n < schedules.length := (List.getElem?_eq_some_iff.mp result).1
    obtain ⟨e, before⟩ : ∃ e, (deadlines start schedules)[n]? = some e := by
      refine ⟨_, List.getElem?_eq_getElem ?_⟩
      rw [deadlines, List.length_cons, List.length_map]
      omega
    have earlier := ih before fun t member => steady t (List.take_subset_take_left _ (Nat.le_succ n) member)
    have present : n < nows.length := by omega
    have here := List.getElem?_eq_getElem present
    have steadyHere : s.resynced = false :=
      steady s (List.mem_take_iff_getElem.mpr ⟨n, by omega, (List.getElem?_eq_some_iff.mp result).2⟩)
    have moves := (keep n _ _ s before here result).moves_iff.mpr steadyHere
    rw [Int.natCast_add, Int.natCast_one, Int.add_mul, Int.one_mul]
    omega

theorem isNormal_deadlines {start : Deadline} {schedules : List Schedule} (normal : start.IsNormal)
    (keep : RunKeepsPace start interval nows schedules) (length : schedules.length = nows.length) :
    ∀ d ∈ deadlines start schedules, d.IsNormal := by
  rw [deadlines, List.forall_mem_cons, List.forall_mem_map]
  refine ⟨normal, fun s member => ?_⟩
  obtain ⟨i, bound, result⟩ := List.getElem_of_mem member
  have reached : i < (deadlines start schedules).length := by
    rw [deadlines, List.length_cons, List.length_map]
    omega
  exact (keep i _ _ s (List.getElem?_eq_getElem reached) (List.getElem?_eq_getElem (length ▸ bound))
    (List.getElem?_eq_some_iff.mpr ⟨bound, result⟩)).normal

/-- Waits at any times, in any order, from any deadline. Only sums of more than 64 bits end a run; otherwise all its
deadlines are in normal form and every wait keeps pace, and a deadline before which none was moved up to now stands a
whole number of intervals after the first one. -/
theorem deadlines_keep_pace {start : Deadline} (normal : start.IsNormal) (positive : 1 ≤ interval)
    (clock : ∀ now ∈ nows, now.IsNormal) :
    (¬ RunFits start interval nows → run start interval nows = .error .addOverflow) ∧
      (RunFits start interval nows → ∃ schedules, run start interval nows = .ok schedules ∧
        schedules.length = nows.length ∧ (∀ d ∈ deadlines start schedules, d.IsNormal) ∧
        RunKeepsPace start interval nows schedules ∧
        ∀ (n : Nat) (d : Deadline), (deadlines start schedules)[n]? = some d →
          (∀ s ∈ schedules.take n, s.resynced = false) → d.toNanos = start.toNanos + n * interval) := by
  refine ⟨run_of_not_fits, fun fits => ?_⟩
  obtain ⟨schedules, runs, length, keep⟩ := run_of_fits positive clock fits
  exact ⟨schedules, runs, length, isNormal_deadlines normal keep length, keep,
    fun n d reached steady => toNanos_deadline keep length reached steady⟩

/-- A wait in time, one a little late and one that is late by more than an interval. -/
theorem deadlines_keep_pace_after_delays :
    RunFits ⟨3, 998000000⟩ 5000000 [⟨4, 0⟩, ⟨4, 9000000⟩, ⟨4, 30000000⟩] ∧
      ∃ schedules, run ⟨3, 998000000⟩ 5000000 [⟨4, 0⟩, ⟨4, 9000000⟩, ⟨4, 30000000⟩] = .ok schedules ∧
        schedules.length = 3 ∧ (∀ d ∈ deadlines ⟨3, 998000000⟩ schedules, d.IsNormal) ∧
        RunKeepsPace ⟨3, 998000000⟩ 5000000 [⟨4, 0⟩, ⟨4, 9000000⟩, ⟨4, 30000000⟩] schedules ∧
        ∀ (n : Nat) (d : Deadline), (deadlines ⟨3, 998000000⟩ schedules)[n]? = some d →
          (∀ s ∈ schedules.take n, s.resynced = false) → d.toNanos = 3998000000 + n * 5000000 :=
  ⟨by decide, (deadlines_keep_pace (by decide) (by decide) (by decide)).2 (by decide)⟩

/-- A wait that begins just when its deadline comes has it at now, though nothing is moved. -/
theorem now_without_resync : ∃ s, after ⟨0, 0⟩ 5000000 ⟨0, 5000000⟩ = .ok s ∧ s.next = ⟨0, 5000000⟩ ∧
    s.resynced = false :=
  ⟨⟨⟨0, 5000000⟩, false, false⟩, rfl, rfl, rfl⟩

end Schedule

end Onboard
