import Onboard.Proofs.Loop.Alarm

/-! One check of a log, and the checks of a log that only grows. A check finds the alarm in just the bytes that it
reads, whatever they are, and leaves off at the end of the log; so each check reads places beyond those of all checks
before it. -/

namespace Onboard

/-- The places of a log that a check reads. -/
def StabilityMonitor.reads (m : StabilityMonitor) : Option FileNode → List Nat
  | some (.file contents) => (List.range contents.length).drop (m.scanStart contents.length)
  | some .directory | none => []

/-- The bytes that stand at some places of a log. -/
def bytesAt (contents : Bytes) (places : List Nat) : Bytes :=
  places.filterMap fun i => contents[i]?

namespace WatchedLog

/-- The places that the checks of a run read, one list for each check. -/
def readsOf (w : WatchedLog) : List LogEvent → List (List Nat)
  | [] => []
  | .append bytes :: rest => (w.step (.append bytes)).readsOf rest
  | .check :: rest => w.monitor.reads w.node :: (w.step .check).readsOf rest

/-- The first place that a check would read now. -/
def floor (w : WatchedLog) : Nat :=
  match w.node with
  | some (.file contents) => w.monitor.scanStart contents.length
  | some .directory | none => 0

end WatchedLog

theorem mem_drop_range {i n k : Nat} : i ∈ (List.range n).drop k ↔ k ≤ i ∧ i < n := by
  rw [List.range_eq_range', List.drop_range', List.mem_range'_1]
  omega

theorem bytesAt_drop_range (contents : Bytes) (k : Nat) :
    bytesAt contents ((List.range contents.length).drop k) = contents.drop k := by
  induction contents generalizing k with
  | nil => rw [List.length_nil, List.range_zero, List.drop_nil, List.drop_nil]; rfl
  | cons b rest ih =>
    have behind : ∀ places, bytesAt (b :: rest) (places.map Nat.succ) = bytesAt rest places := by
      intro places
      simp only [bytesAt, List.filterMap_map, Function.comp_def, Nat.succ_eq_add_one, List.getElem?_cons_succ]
    rw [List.length_cons, List.range_succ_eq_map]
    cases k with
    | zero => simpa [bytesAt] using (behind (List.range rest.length)).trans (ih 0)
    | succ k =>
      rw [List.drop_succ_cons, List.drop_succ_cons, ← List.map_drop, behind, ih]

namespace WatchedLog

/-- A log that grows is never read again from further ahead. -/
theorem floor_le_step (w : WatchedLog) (e : LogEvent) : w.floor ≤ (w.step e).floor := by
  obtain ⟨node, path, offset⟩ := w
  cases e with
  | append bytes =>
    cases node with
    | none => exact Nat.zero_le _
    | some node =>
      cases node with
      | directory => exact Nat.zero_le _
      | file contents =>
        simp only [floor, step, FileNode.appended, StabilityMonitor.scanStart, List.length_append]
        split <;> split <;> omega
  | check =>
    cases node with
    | none => exact Nat.zero_le _
    | some node =>
      cases node with
      | directory => exact Nat.zero_le _
      | file contents =>
        simp only [floor, step, (StabilityMonitor.check_file _ contents).2, StabilityMonitor.scanStart]
        split <;> split <;> omega

/-- What a check reads lies beyond what was read before, and short of what will be read later. -/
theorem between_of_mem_reads {w : WatchedLog} (read : i ∈ w.monitor.reads w.node) :
    w.floor ≤ i ∧ i < (w.step .check).floor := by
  obtain ⟨node, path, offset⟩ := w
  cases node with
  | none => exact absurd read List.not_mem_nil
  | some node =>
    cases node with
    | directory => exact absurd read List.not_mem_nil
    | file contents =>
      obtain ⟨above, below⟩ := mem_drop_range.mp read
      refine ⟨above, ?_⟩
      simpa only [floor, step, (StabilityMonitor.check_file _ contents).2, StabilityMonitor.scanStart, Nat.lt_irrefl,
        if_false] using below

theorem floor_le_of_mem_readsOf {w : WatchedLog} {events : List LogEvent} (made : places ∈ w.readsOf events)
    (read : i ∈ places) : w.floor ≤ i := by
  induction events generalizing w with
  | nil => exact absurd made List.not_mem_nil
  | cons e rest ih =>
    have grown := w.floor_le_step e
    cases e with
    | append bytes => exact Nat.le_trans grown (ih made)
    | check =>
      rcases List.mem_cons.mp made with rfl | later
      · exact (between_of_mem_reads read).1
      · exact Nat.le_trans grown (ih later)

/-- Each check reads beyond all checks before it. -/
theorem pairwise_readsOf (w : WatchedLog) (events : List LogEvent) :
    (w.readsOf events).Pairwise fun earlier later => ∀ i ∈ earlier, ∀ j ∈ later, i < j := by
  induction events generalizing w with
  | nil => exact .nil
  | cons e rest ih =>
    cases e with
    | append bytes => exact ih _
    | check =>
      refine .cons ?_ (ih _)
      intro later made i read j readLater
      exact Nat.lt_of_lt_of_le (between_of_mem_reads read).2 (floor_le_of_mem_readsOf made readLater)

end WatchedLog

/-- A check of a log that can be read reads the bytes from the offset on, or all of them if the log has become shorter
than that; it finds the alarm exactly if its bytes stand somewhere among those in a row, and moves the offset to the
log's end. A log that cannot be opened changes nothing. Decoding neither hides an alarm nor makes one. While a log only
grows, no place of it is read by two checks. -/
theorem checks_are_exact (m : StabilityMonitor) :
    (∀ contents, let start := if contents.length < m.offset then 0 else m.offset
        ((m.check (some (.file contents))).1 = false ↔ alarm <:+: contents.drop start) ∧
          bytesAt contents (m.reads (some (.file contents))) = contents.drop start ∧
          (m.check (some (.file contents))).2.1 = { m with offset := contents.length }) ∧
      m.check none = (true, m, []) ∧
      (∀ bytes before after, Utf8.decodeLossy bytes = before ++ overCurrentMarker.toList ++ after ↔
        ∃ a b, bytes = a ++ alarm ++ b ∧ Utf8.decodeLossy a = before ∧ Utf8.decodeLossy b = after) ∧
      ∀ node events, (WatchedLog.readsOf ⟨node, m⟩ events).Pairwise
        fun earlier later => ∀ i ∈ earlier, ∀ j ∈ later, i < j := by
  refine ⟨?_, rfl, ?_, ?_⟩
  · intro contents start
    obtain ⟨answer, moved⟩ := m.check_file contents
    refine ⟨?_, bytesAt_drop_range contents start, moved⟩
    rw [answer, Bool.not_eq_false', holdsMarker_iff, StabilityMonitor.scanStart]
  · intro bytes before after
    rw [← plainChars_alarm]
    exact Utf8.decodeLossy_eq_iff alarm_ne_nil isPlain_alarm bytes before after
  · intro node events
    exact WatchedLog.pairwise_readsOf ⟨node, m⟩ events

end Onboard
