import Onboard.Proofs.Loop.Cycle
import Onboard.Proofs.Network.Polls

/-! The robot does not drive on a dead link. The executor is started anew on some cycles only; the main statement
says that it nevertheless always runs what the policy prescribes for the cycle, and that a robot held still for want
of sets moves again only upon a newer one. -/

namespace Onboard

/-- Nothing to follow, or too old. -/
def isOverdue (timeout : Duration) (set : Option InboundSet) (now : Instant) : Bool :=
  match set with
  | some s => timeout < now.since s.receivedAt
  | none => true

def prescription (robotId : UInt32) (timeout : Duration) (set : Option InboundSet) (now : Instant) : Primitive :=
  match set with
  | some s => if now.since s.receivedAt ≤ timeout then (s.set.primitiveFor robotId).getD .stop else .stop
  | none => .stop

/-- The robot stands still and says why. -/
structure CycleReport.HoldsStill (report : CycleReport) : Prop where
  output : report.output = .atRest
  timedOut : report.status.timedOut = true
  runningStop : report.status.runningStop = true

/-- Whether the last of some cycles had nothing to follow; before the first there was nothing. -/
def overdueAfter (timeout : Duration) (inputs : List CycleInput) : Bool :=
  match inputs.getLast? with
  | some input => isOverdue timeout (followed (inputs.map CycleInput.inbound)) input.now
  | none => true

def lastStarted (reports : List CycleReport) : Option Primitive :=
  (reports.filterMap CycleReport.started).getLast?

/-- Cycles one after another, with what each reports. -/
inductive Driven (first : ControlLoop) : List CycleInput → List CycleReport → ControlLoop → Prop where
  | opened : Driven first [] [] first
  | next : Driven first inputs reports l → l.cycle input = .ok (after, report) →
      Driven first (inputs ++ [input]) (reports ++ [report]) after

theorem lastStarted_append (reports : List CycleReport) (report : CycleReport) :
    lastStarted (reports ++ [report]) = report.started.or (lastStarted reports) := by
  unfold lastStarted
  rw [List.filterMap_append]
  cases started : report.started with
  | none => simp [started]
  | some primitive => simp [started]

/-- What ties a loop to the sets handed to it so far. -/
structure Follows (robot : UInt32) (timeout : Duration) (inputs : List CycleInput) (reports : List CycleReport)
    (l : ControlLoop) : Prop where
  robotId : l.robotId = robot
  limit : l.staleness.timeout = timeout
  currentSet : l.currentSet = (followed (inputs.map CycleInput.inbound)).map InboundSet.set
  isStale : ∀ now, l.staleness.isStale now = isOverdue timeout (followed (inputs.map CycleInput.inbound)) now
  wasStale : l.wasStale = overdueAfter timeout inputs
  cycles : l.store.cycles.toNat = inputs.length
  executor : l.executor.primitive = l.prescribed l.wasStale
  started : inputs ≠ [] → lastStarted reports = some l.executor.primitive

theorem prescribed_eq {l : ControlLoop} {current : Option InboundSet}
    (same : l.currentSet = current.map InboundSet.set) (timeout : Duration) (now : Instant) :
    l.prescribed (isOverdue timeout current now) = prescription l.robotId timeout current now := by
  unfold ControlLoop.prescribed prescription isOverdue
  rw [same]
  cases current with
  | none => rfl
  | some s =>
    by_cases fresh : now.since s.receivedAt ≤ timeout
    · simp only [Nat.not_lt.mpr fresh, decide_false, Option.map_some, if_pos fresh]
    · simp only [Nat.not_le.mp fresh, decide_true, if_neg fresh]

theorem overdueAfter_append (timeout : Duration) (inputs : List CycleInput) (input : CycleInput) :
    overdueAfter timeout (inputs ++ [input]) =
      isOverdue timeout (followed ((inputs ++ [input]).map CycleInput.inbound)) input.now := by
  unfold overdueAfter
  rw [List.getLast?_concat]

theorem followed_next (inputs : List CycleInput) (input : CycleInput) :
    followed ((inputs ++ [input]).map CycleInput.inbound) =
      NetworkService.newer (followed (inputs.map CycleInput.inbound)) input.inbound := by
  rw [List.map_append]
  exact followed_append ..

theorem Follows.opened (fresh : ControlLoop.Fresh robot settings timeout start l) :
    Follows robot.robotId timeout [] [] l where
  robotId := fresh.robotId
  limit := by rw [fresh.staleness]; rfl
  currentSet := fresh.currentSet
  isStale := by rw [fresh.staleness]; exact fun _ => rfl
  wasStale := fresh.wasStale
  cycles := by rw [fresh.cycles]; rfl
  executor := by rw [fresh.executor, fresh.wasStale]; rfl
  started := nofun

theorem Follows.isStale_next (follows : Follows robot timeout inputs reports l)
    (cycled : ControlLoop.Cycled l input after report) (now : Instant) :
    after.staleness.isStale now =
      isOverdue timeout (followed ((inputs ++ [input]).map CycleInput.inbound)) now := by
  rw [followed_next, ControlLoop.newer_eq follows.currentSet, cycled.staleness]
  cases l.accepted input.inbound with
  | none => exact follows.isStale now
  | some s =>
    rw [Option.some_or]
    simp only [Option.elim_some, Staleness.isStale, Staleness.accept, Staleness.age, follows.limit, isOverdue,
      Bool.not_true, Bool.false_or]

/-- A cycle that does not start the executor leaves it with what it would be started with. -/
theorem Follows.executor_next (follows : Follows robot timeout inputs reports l)
    (cycled : ControlLoop.Cycled l input after report) :
    after.executor.primitive = after.prescribed after.wasStale ∧
      lastStarted (reports ++ [report]) = some after.executor.primitive := by
  rw [lastStarted_append, cycled.executor]
  cases started : report.started with
  | some primitive => exact ⟨cycled.eq_of_started started, rfl⟩
  | none =>
    obtain ⟨unchanged, same, later⟩ := cycled.of_started_none started
    have ran : inputs ≠ [] := by
      rintro rfl
      exact later (UInt64.toNat_inj.mp follows.cycles)
    refine ⟨?_, follows.started ran⟩
    change l.executor.primitive = _
    rw [follows.executor, same]
    unfold ControlLoop.prescribed
    rw [unchanged, cycled.robotId]

theorem Follows.next (follows : Follows robot timeout inputs reports l)
    (cycled : ControlLoop.Cycled l input after report) :
    Follows robot timeout (inputs ++ [input]) (reports ++ [report]) after where
  robotId := cycled.robotId.trans follows.robotId
  limit := by
    rw [cycled.staleness]
    cases l.accepted input.inbound <;> exact follows.limit
  currentSet := by
    rw [followed_next]
    exact cycled.currentSet_eq follows.currentSet
  isStale := follows.isStale_next cycled
  wasStale := by rw [cycled.wasStale, follows.isStale_next cycled, overdueAfter_append]
  cycles := by rw [cycled.cycles, follows.cycles, List.length_append]; rfl
  executor := (follows.executor_next cycled).1
  started _ := (follows.executor_next cycled).2

theorem Driven.follows (fresh : ControlLoop.Fresh robot settings timeout start first)
    (driven : Driven first inputs reports l) : Follows robot.robotId timeout inputs reports l := by
  induction driven with
  | opened => exact .opened fresh
  | next _ ended ih => exact ih.next (ControlLoop.cycled ended)

theorem Driven.settings (driven : Driven first inputs reports l) : l.settings = first.settings := by
  induction driven with
  | opened => rfl
  | next _ ended ih => exact (ControlLoop.cycled ended).settings.trans ih

theorem Driven.last_cycle (driven : Driven first (inputs ++ [input]) (reports ++ [report]) last) :
    ∃ l, Driven first inputs reports l ∧ l.cycle input = .ok (last, report) := by
  generalize sameInputs : inputs ++ [input] = allInputs at driven
  generalize sameReports : reports ++ [report] = allReports at driven
  cases driven with
  | opened => exact absurd sameInputs (by simp)
  | next earlier ended =>
    obtain ⟨rfl, sameInput⟩ := List.append_inj' sameInputs rfl
    obtain ⟨rfl, sameReport⟩ := List.append_inj' sameReports rfl
    cases sameInput
    cases sameReport
    exact ⟨_, earlier, ended⟩

theorem exists_newer {current : Option InboundSet} {inputs : List CycleInput}
    (changed : (inputs.map CycleInput.inbound).foldl NetworkService.newer current ≠ current) :
    ∃ before input after s, inputs = before ++ input :: after ∧ input.inbound = some s ∧
      ∀ c, (before.map CycleInput.inbound).foldl NetworkService.newer current = some c →
        c.set.timeSent < s.set.timeSent := by
  induction inputs generalizing current with
  | nil => exact absurd rfl changed
  | cons input rest ih =>
    by_cases same : NetworkService.newer current input.inbound = current
    · simp only [List.map_cons, List.foldl_cons, same] at changed
      obtain ⟨before, taken, after, s, split, inbound, newer⟩ := ih changed
      refine ⟨input :: before, taken, after, s, by rw [split]; rfl, inbound, ?_⟩
      simp only [List.map_cons, List.foldl_cons, same]
      exact newer
    · obtain ⟨s, inbound, -, newer⟩ := newer_ne same
      exact ⟨[], input, rest, s, rfl, inbound, newer⟩

theorem isSome_accepted_iff {l : ControlLoop} {current : Option InboundSet}
    (same : l.currentSet = current.map InboundSet.set) (inbound : Option InboundSet) :
    (l.accepted inbound).isSome = true ↔ NetworkService.newer current inbound ≠ current := by
  rw [ControlLoop.newer_eq same]
  cases taken : l.accepted inbound with
  | none => simp
  | some s =>
    simp only [Option.isSome_some, Option.some_or, ne_eq, true_iff]
    rintro rfl
    have accepts : l.accepts s = true := (Option.filter_eq_some_iff.mp taken).2
    unfold ControlLoop.accepts at accepts
    rw [same] at accepts
    exact absurd accepts (by simp [PrimitiveSet.not_isNewerThan_self])

theorem isOverdue_later (overdue : isOverdue timeout current earlier = true) (order : earlier ≤ later) :
    isOverdue timeout current later = true := by
  cases current with
  | none => rfl
  | some s =>
    have longer : earlier.since s.receivedAt ≤ later.since s.receivedAt := Nat.sub_le_sub_right order _
    exact decide_eq_true (Nat.lt_of_lt_of_le (of_decide_eq_true overdue) longer)

theorem CycleReport.HoldsStill.of_overdue
    (follows : Follows robot timeout (inputs ++ [input]) (reports ++ [report]) last)
    (cycled : ControlLoop.Cycled l input last report)
    (overdue : isOverdue timeout (followed ((inputs ++ [input]).map CycleInput.inbound)) input.now = true) :
    report.HoldsStill := by
  have stale : last.wasStale = true := by rw [follows.wasStale, overdueAfter_append, overdue]
  have stop : last.prescribed last.wasStale = .stop := by
    rw [stale]
    rfl
  have stopped : last.executor = ⟨.stop⟩ := by
    rw [← stop, ← follows.executor]
  refine ⟨?_, ?_, ?_⟩
  · rw [cycled.output, stopped]
    rfl
  · rw [cycled.status, cycled.timedOut, stale]
  · rw [cycled.status, cycled.runningStop, stop]
    rfl

/-- The executor is started on the first cycle, for a new set and upon a change of staleness. -/
theorem Follows.isSome_started_iff (before : Follows robot timeout inputs reports l)
    (follows : Follows robot timeout (inputs ++ [input]) (reports ++ [report]) last)
    (cycled : ControlLoop.Cycled l input last report) :
    report.started.isSome = true ↔ inputs = [] ∨
      followed ((inputs ++ [input]).map CycleInput.inbound) ≠ followed (inputs.map CycleInput.inbound) ∨
      overdueAfter timeout (inputs ++ [input]) ≠ overdueAfter timeout inputs := by
  have first : inputs = [] ↔ l.store.cycles = 0 := by
    rw [← UInt64.toNat_inj, before.cycles]
    exact List.length_eq_zero_iff.symm
  rw [cycled.started, ← follows.wasStale, ← before.wasStale, followed_next, ← isSome_accepted_iff before.currentSet,
    first]
  split
  · next restarts =>
    simp only [Bool.or_eq_true, bne_iff_ne, decide_eq_true_eq] at restarts
    simp only [Option.isSome_some, true_iff]
    exact or_comm.mp restarts
  · next calm =>
    simp only [Bool.or_eq_true, bne_iff_ne, decide_eq_true_eq, not_or] at calm
    simp only [Option.isSome_none, Bool.false_eq_true, false_iff, not_or]
    exact ⟨calm.2, calm.1⟩

/-- After every cycle the executor was last started with what the policy prescribes, although it is started only for
a new set, upon a change of staleness and on the first cycle. A cycle without a set in time holds the robot still,
and on a clock that does not go back only a newer set sets it free. -/
theorem runs_prescription {settings : LoopSettings}
    (time : ControlLoop.timeoutOf settings.packetTimeoutMs = .ok timeout)
    (opened : ControlLoop.new robot settings files start = .ok (first, lines))
    (driven : Driven first (inputs ++ [input]) (reports ++ [report]) last) :
    lastStarted (reports ++ [report]) = some (prescription robot.robotId timeout
        (followed ((inputs ++ [input]).map CycleInput.inbound)) input.now) ∧
      (report.started.isSome = true ↔ inputs = [] ∨
        followed ((inputs ++ [input]).map CycleInput.inbound) ≠ followed (inputs.map CycleInput.inbound) ∨
        overdueAfter timeout (inputs ++ [input]) ≠ overdueAfter timeout inputs) ∧
      (overdueAfter timeout (inputs ++ [input]) = true → report.HoldsStill) ∧
      ∀ early late between, inputs = early ++ late :: between → late.now ≤ input.now →
        overdueAfter timeout (early ++ [late]) = true → ¬ report.HoldsStill →
        ∃ before taken after s, between ++ [input] = before ++ taken :: after ∧ taken.inbound = some s ∧
          ∀ c, followed ((early ++ late :: before).map CycleInput.inbound) = some c →
            c.set.timeSent < s.set.timeSent := by
  obtain ⟨l, earlier, ended⟩ := driven.last_cycle
  have fresh := ControlLoop.fresh time opened
  have follows := driven.follows fresh
  have before := earlier.follows fresh
  have cycled := ControlLoop.cycled ended
  refine ⟨?_, ?_, ?_, ?_⟩
  · rw [follows.started (by simp), follows.executor, follows.wasStale, overdueAfter_append,
      prescribed_eq follows.currentSet, follows.robotId]
  · exact before.isSome_started_iff follows cycled
  · intro overdue
    rw [overdueAfter_append] at overdue
    exact .of_overdue follows cycled overdue
  · rintro early late between rfl order overdue moving
    rw [overdueAfter_append] at overdue
    have changed : ((between ++ [input]).map CycleInput.inbound).foldl NetworkService.newer
        (followed ((early ++ [late]).map CycleInput.inbound)) ≠
        followed ((early ++ [late]).map CycleInput.inbound) := by
      intro same
      have still := isOverdue_later overdue order
      rw [← same] at still
      exact moving (.of_overdue follows cycled (by simpa [followed] using still))
    obtain ⟨before, taken, after, s, split, inbound, newer⟩ := exists_newer changed
    refine ⟨before, taken, after, s, split, inbound, ?_⟩
    simpa [followed] using newer

/-- A set is followed for a second; then the robot stands still. -/
theorem runs_prescription_for_a_second :
    ∃ first lines moving still last,
      ControlLoop.new .seventh .secondly (fun _ => none) 0 = .ok (first, lines) ∧
      Driven first ([{ CycleInput.quiet 0 with inbound := some ⟨⟨1, 1.0, .ofList [(7, .direct .zero (.kick 1.0))]⟩,
        0, 1.0, 0.0⟩ }] ++ [CycleInput.quiet (2 * nanosPerSecond)]) ([moving] ++ [still]) last ∧
      lastStarted ([moving] ++ [still]) = some .stop ∧ still.HoldsStill := by
  have time : ControlLoop.timeoutOf LoopSettings.secondly.packetTimeoutMs = _ := ControlLoop.timeoutOf_second
  obtain ⟨first, lines, opened, fresh⟩ := ControlLoop.new_ok .seventh (fun _ => none) 0 time
  obtain ⟨middle, moving, ended⟩ := first.cycle_ok { CycleInput.quiet 0 with
    inbound := some ⟨⟨1, 1.0, .ofList [(7, .direct .zero (.kick 1.0))]⟩, 0, 1.0, 0.0⟩ }
    (by rw [fresh.settings]; exact ControlLoop.timeoutOf_second) (by rw [fresh.cycles]; decide)
  have cycled := ControlLoop.cycled ended
  obtain ⟨last, still, laterEnded⟩ := middle.cycle_ok (CycleInput.quiet (2 * nanosPerSecond))
    (by rw [cycled.settings, fresh.settings]; exact ControlLoop.timeoutOf_second)
    (by rw [cycled.cycles, fresh.cycles]; decide)
  have driven := Driven.next (Driven.next .opened ended) laterEnded
  obtain ⟨started, -, holds, -⟩ := runs_prescription time opened driven
  exact ⟨first, lines, moving, still, last, opened, driven, started, holds rfl⟩

end Onboard
