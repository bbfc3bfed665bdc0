import Onboard.Proofs.Loop.Policy
import Onboard.Proofs.Number.Quotient

/-! When the kicker and the chipper were last fired, as the status tells it, and what the power board was told. A demand
is looked at twice: its kind alone sets the time, whereas its kind and its amount decide on the pulse. The two agree
exactly if the amount can be met; a demand with a negative amount, or one that is not finite, sets the time of a pulse
that the board is never asked for. -/

namespace Onboard

namespace PulseMode

/-- The pulse goes to the kicker. -/
def kicks : PulseMode → Bool
  | .kick | .autoKick => true
  | .idle | .chip | .autoChip => false

/-- The pulse goes to the chipper. -/
def chips : PulseMode → Bool
  | .chip | .autoChip => true
  | .idle | .kick | .autoKick => false

end PulseMode

/-- The amount, if one is asked for, is a number that is not below zero. -/
def ChickerCommand.IsMet (demand : ChickerCommand) : Prop :=
  ∀ amount, demand.amount? = some amount → amount.isFinite = true ∧ 0.0 ≤ amount

/-- The times after a pulse of this mode has been asked for. -/
def FireTimes.pulsed (t : FireTimes) (mode : PulseMode) (now : Instant) : FireTimes :=
  ⟨if mode.kicks then some now else t.kicker, if mode.chips then some now else t.chipper⟩

/-- Each solenoid has a width only in its own modes. -/
structure PulseCommand.HasOwnWidths (c : PulseCommand) : Prop where
  kick : c.kickWidth ≠ 0 → c.mode.kicks = true
  chip : c.chipWidth ≠ 0 → c.mode.chips = true
  idle : c.mode = .idle → c.kickWidth = 0 ∧ c.chipWidth = 0

namespace PulseCommand

theorem isValidDemand_iff (amount : Float) : isValidDemand amount = true ↔ amount.isFinite = true ∧ 0.0 ≤ amount := by
  rw [isValidDemand, Bool.and_eq_true, Bool.not_eq_true', decide_eq_false_iff_not]
  apply and_congr_right
  intro finite
  exact Double.not_lt_iff (Double.number_of_isFinite finite) (by decide)

end PulseCommand

theorem ChickerCommand.isMet_iff (demand : ChickerCommand) :
    demand.IsMet ↔ demand.amount?.all PulseCommand.isValidDemand = true := by
  unfold IsMet
  cases demand.amount? with
  | none => simp
  | some amount => simp [PulseCommand.isValidDemand_iff]

/-- A demand that can be met asks for a pulse of its own kind. -/
theorem ChickerCommand.IsMet.kind {demand : ChickerCommand} (met : demand.IsMet) (calibration : KickCalibration) :
    (PulseCommand.ofDemand calibration demand).mode.kicks = demand.isKick ∧
      (PulseCommand.ofDemand calibration demand).mode.chips = demand.isChip := by
  rw [isMet_iff] at met
  cases demand with
  | idle => exact ⟨rfl, rfl⟩
  | kick x | chip x | autoKick x | autoChip x =>
    have valid : PulseCommand.isValidDemand x = true := met
    simp only [PulseCommand.ofDemand, valid, if_true]
    exact ⟨rfl, rfl⟩

namespace PulseCommand

/-- A demand that cannot be met asks for no pulse. -/
theorem ofDemand_unmet {demand : ChickerCommand} (unmet : ¬ demand.IsMet) (calibration : KickCalibration) :
    ofDemand calibration demand = idle := by
  rw [ChickerCommand.isMet_iff] at unmet
  cases demand with
  | idle => exact absurd rfl unmet
  | kick x | chip x | autoKick x | autoChip x =>
    have refused : isValidDemand x = false := by simpa [ChickerCommand.amount?] using unmet
    simp [ofDemand, refused]

theorem hasOwnWidths_ofDemand (calibration : KickCalibration) (demand : ChickerCommand) :
    (ofDemand calibration demand).HasOwnWidths := by
  cases demand with
  | idle => exact ⟨fun some => absurd rfl some, fun some => absurd rfl some, fun _ => ⟨rfl, rfl⟩⟩
  | kick x | chip x | autoKick x | autoChip x =>
    unfold ofDemand
    dsimp only
    split
    · constructor <;> simp [PulseMode.kicks, PulseMode.chips]
    · constructor <;> simp [idle]

end PulseCommand

namespace FireTimes

theorem update_met {demand : ChickerCommand} (met : demand.IsMet) (t : FireTimes) (calibration : KickCalibration)
    (now : Instant) : t.update demand now = t.pulsed (PulseCommand.ofDemand calibration demand).mode now := by
  obtain ⟨kicks, chips⟩ := met.kind calibration
  rw [update, pulsed, kicks, chips]

theorem pulsed_unmet {demand : ChickerCommand} (unmet : ¬ demand.IsMet) (t : FireTimes) (calibration : KickCalibration)
    (now : Instant) : t.pulsed (PulseCommand.ofDemand calibration demand).mode now = t := by
  rw [PulseCommand.ofDemand_unmet unmet]
  rfl

/-- What cannot be met is noted all the same. -/
theorem update_unmet {demand : ChickerCommand} (unmet : ¬ demand.IsMet) (now : Instant) :
    never.update demand now ≠ never := by
  intro same
  cases demand with
  | idle => exact unmet nofun
  | kick x | chip x | autoKick x | autoChip x => exact nomatch same

end FireTimes

theorem ControlLoop.fireTimes_of_new {settings : LoopSettings}
    (opened : new robot settings files start = .ok (l, lines)) : l.fireTimes = .never := by
  unfold new at opened
  cases time : timeoutOf settings.packetTimeoutMs with
  | ok timeout =>
    rw [time] at opened
    cases opened
    rfl
  | error e =>
    rw [time] at opened
    contradiction

/-- When a pulse of some modes was last asked for. -/
def lastPulse (modes : PulseMode → Bool) (inputs : List CycleInput) (reports : List CycleReport) : Option Instant :=
  ((inputs.zip reports).filter fun c => modes c.2.command.mode).getLast?.map fun c => c.1.now

theorem lastPulse_concat (modes : PulseMode → Bool) {inputs : List CycleInput} {reports : List CycleReport}
    (same : inputs.length = reports.length) (input : CycleInput) (report : CycleReport) :
    lastPulse modes (inputs ++ [input]) (reports ++ [report]) =
      if modes report.command.mode then some input.now else lastPulse modes inputs reports := by
  unfold lastPulse
  rw [List.zip_append same, List.filter_append, List.zip_cons_cons, List.zip_nil_left]
  cases pulse : modes report.command.mode <;> simp [pulse]

theorem Driven.length_eq (driven : Driven first inputs reports l) : inputs.length = reports.length := by
  induction driven with
  | opened => rfl
  | next _ _ ih => simp [ih]

/-- As long as all demands can be met, the times are those of the last pulses that the board was asked for. -/
theorem Driven.fireTimes_eq (fresh : first.fireTimes = .never) (driven : Driven first inputs reports l)
    (met : ∀ report ∈ reports, report.output.power.IsMet) :
    l.fireTimes = ⟨lastPulse PulseMode.kicks inputs reports, lastPulse PulseMode.chips inputs reports⟩ := by
  induction driven with
  | opened => exact fresh
  | next earlier ended ih =>
    have asks := ControlLoop.asks ended
    obtain ⟨before, last⟩ := List.forall_mem_append.mp met
    have metLast := last _ List.mem_cons_self
    rw [asks.fireTimes, FireTimes.update_met metLast _ _ _, ← asks.command, ih before, FireTimes.pulsed,
      lastPulse_concat _ earlier.length_eq, lastPulse_concat _ earlier.length_eq]

/-- A cycle notes the kicker and the chipper as fired exactly as the command demands that it hands to the board, if
its demand can be met, and otherwise only if what it notes was noted already. Whatever the calibration and the times
before, this is so for just the demands that can be met. The command has a width for the solenoid of its mode alone.
At the end of a run of which all demands can be met, the times are those of the last pulses of the run. -/
theorem pulses_noted_iff (ended : ControlLoop.cycle l input = .ok (after, report)) :
    (after.fireTimes = l.fireTimes.pulsed report.command.mode input.now ↔
        report.output.power.IsMet ∨ after.fireTimes = l.fireTimes) ∧
      (∀ calibration demand, (∀ t now, FireTimes.update t demand now =
        t.pulsed (PulseCommand.ofDemand calibration demand).mode now) ↔ demand.IsMet) ∧
      report.command.HasOwnWidths ∧
      ∀ first inputs reports, first.fireTimes = .never → Driven first inputs reports l →
        (∀ r ∈ reports ++ [report], r.output.power.IsMet) →
        after.fireTimes = ⟨lastPulse PulseMode.kicks (inputs ++ [input]) (reports ++ [report]),
          lastPulse PulseMode.chips (inputs ++ [input]) (reports ++ [report])⟩ := by
  have asks := ControlLoop.asks ended
  refine ⟨?_, ?_, ?_, fun first inputs reports fresh driven met => (driven.next ended).fireTimes_eq fresh met⟩
  · rw [asks.command, asks.fireTimes]
    by_cases met : report.output.power.IsMet
    · exact iff_of_true (FireTimes.update_met met _ _ _) (.inl met)
    · rw [FireTimes.pulsed_unmet met, or_iff_right met]
  · intro calibration demand
    constructor
    · intro agrees
      by_contra unmet
      have noted := agrees .never 0
      rw [FireTimes.pulsed_unmet unmet] at noted
      exact FireTimes.update_unmet unmet 0 noted
    · intro met t now
      exact FireTimes.update_met met t calibration now
  · rw [asks.command]
    exact PulseCommand.hasOwnWidths_ofDemand _ _

/-- A robot with settings that pass their check. -/
def RobotSettings.third : RobotSettings :=
  ⟨3, 0, "lo", ⟨0.3589, 300, 350⟩⟩

/-- A set that asks the third robot to kick. -/
def CycleInput.kicking (speed : Float) : CycleInput :=
  { CycleInput.quiet 0 with inbound := some ⟨⟨1, 1.0, .ofList [(3, .direct .zero (.kick speed))]⟩, 0, 1.0, 0.0⟩ }

/-- The third robot is asked to kick in the first cycle of its loop. -/
theorem exists_kicking (speed : Float) : ∃ first lines after report,
    ControlLoop.new .third .secondly (fun _ => none) 0 = .ok (first, lines) ∧
      first.cycle (.kicking speed) = .ok (after, report) ∧ first.fireTimes = .never ∧
      report.output.power = .kick speed := by
  have time : ControlLoop.timeoutOf LoopSettings.secondly.packetTimeoutMs = _ := ControlLoop.timeoutOf_second
  obtain ⟨first, lines, opened, fresh⟩ := ControlLoop.new_ok .third (fun _ => none) 0 time
  obtain ⟨after, report, ended⟩ := first.cycle_ok (.kicking speed)
    (by rw [fresh.settings]; exact ControlLoop.timeoutOf_second) (by rw [fresh.cycles]; decide)
  refine ⟨first, lines, after, report, opened, ended, ControlLoop.fireTimes_of_new opened, ?_⟩
  have driven : Driven first ([] ++ [.kicking speed]) ([] ++ [report]) after := .next .opened ended
  have follows := driven.follows fresh
  have runs : after.executor.primitive = .direct .zero (.kick speed) := by
    rw [follows.executor, follows.wasStale, overdueAfter_append, prescribed_eq follows.currentSet, follows.robotId]
    rfl
  rw [(ControlLoop.cycled ended).output, Executor.step, runs]

/-- A kick at two metres a second is asked of the board, and noted. -/
theorem kick_noted : ∃ first lines after report,
    ControlLoop.new .third .secondly (fun _ => none) 0 = .ok (first, lines) ∧
      first.cycle (.kicking 2.0) = .ok (after, report) ∧ report.command.mode = .kick ∧
      after.fireTimes = first.fireTimes.pulsed .kick 0 := by
  obtain ⟨first, lines, after, report, opened, ended, -, power⟩ := exists_kicking 2.0
  have met : report.output.power.IsMet := by
    rw [power, ChickerCommand.isMet_iff]
    decide
  have mode : report.command.mode = .kick := by
    rw [(ControlLoop.asks ended).command, power]
    rfl
  have noted := (pulses_noted_iff ended).1.mpr (.inl met)
  rw [mode] at noted
  exact ⟨first, lines, after, report, opened, ended, mode, noted⟩

/-- One at a speed below zero is not asked of it, but is noted all the same. -/
theorem negative_kick_noted : RobotSettings.third.check = .ok () ∧ ∃ first lines after report,
    ControlLoop.new .third .secondly (fun _ => none) 0 = .ok (first, lines) ∧
      first.cycle (.kicking (-1.0)) = .ok (after, report) ∧ report.command.mode = .idle ∧
      first.fireTimes.kicker = none ∧ after.fireTimes.kicker = some 0 := by
  obtain ⟨first, lines, after, report, opened, ended, never, power⟩ := exists_kicking (-1.0)
  have asks := ControlLoop.asks ended
  refine ⟨by decide, first, lines, after, report, opened, ended, ?_, ?_, ?_⟩
  · rw [asks.command, power]
    rfl
  · rw [never]
    rfl
  · rw [asks.fireTimes, power]
    rfl

end Onboard
