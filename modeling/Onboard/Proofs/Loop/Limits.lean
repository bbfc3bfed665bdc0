import Onboard.Proofs.Loop.Pacing
import Onboard.Proofs.Loop.Policy
import Onboard.Proofs.Number.Quotient
import Onboard.Settings.Basic

/-! How far settings that pass their check can be used. The check tells finite positive numbers from others, but the
seconds of a time have 64 bits, and so have counts and nanoseconds: each use of a timeout or a rate comes to a result
up to a number that is known exactly. -/

namespace Onboard

namespace LoopSettings
variable {settings : LoopSettings}

structure IsUsable (s : LoopSettings) : Prop where
  loopHz : 0.0 < s.loopHz
  finite : s.loopHz.isFinite = true
  statusHz : 0.0 < s.statusHz
  status_le : s.statusHz ≤ s.loopHz
  primitiveHz : 0.0 < s.primitiveHz
  primitive_le : s.primitiveHz ≤ s.loopHz
  packetTimeout : 0.0 < s.packetTimeoutMs
  finite_packet : s.packetTimeoutMs.isFinite = true
  peripheralTimeout : 0.0 < s.peripheralTimeoutMs
  finite_peripheral : s.peripheralTimeoutMs.isFinite = true

theorem require_iff {holds : Bool} {error : SettingsError} : require holds error = .ok () ↔ holds = true := by
  cases holds with
  | false => exact iff_of_false nofun Bool.false_ne_true
  | true => exact iff_of_true rfl rfl

theorem require_bind_iff {holds : Bool} {error : SettingsError} {rest : Except SettingsError Unit} :
    (require holds error >>= fun _ => rest) = .ok () ↔ holds = true ∧ rest = .ok () := by
  cases holds with
  | false => exact iff_of_false nofun fun both => Bool.false_ne_true both.1
  | true => exact (and_iff_right rfl).symm

theorem isUsableRate_iff (number : settings.loopHz.isNaN = false) {hz : Float} :
    settings.isUsableRate hz = true ↔ 0.0 < hz ∧ hz ≤ settings.loopHz := by
  unfold isUsableRate
  rw [Bool.and_eq_true, decide_eq_true_iff, Bool.not_eq_true', decide_eq_false_iff_not]
  exact and_congr_right fun positive => Double.not_lt_iff number (Double.number_of_lt positive).2

theorem check_eq_ok_iff : settings.check = .ok () ↔ settings.IsUsable := by
  unfold check
  simp only [require_bind_iff, require_iff, isUsableTimeout, Bool.and_eq_true, decide_eq_true_iff]
  constructor
  · rintro ⟨⟨loopHz, finite⟩, status, primitive, ⟨packet, finitePacket⟩, peripheral, finitePeripheral⟩
    have number := Double.number_of_isFinite finite
    obtain ⟨statusHz, status_le⟩ := (isUsableRate_iff number).mp status
    obtain ⟨primitiveHz, primitive_le⟩ := (isUsableRate_iff number).mp primitive
    exact ⟨loopHz, finite, statusHz, status_le, primitiveHz, primitive_le, packet, finitePacket, peripheral,
      finitePeripheral⟩
  · intro usable
    have number := Double.number_of_isFinite usable.finite
    exact ⟨⟨usable.loopHz, usable.finite⟩, (isUsableRate_iff number).mpr ⟨usable.statusHz, usable.status_le⟩,
      (isUsableRate_iff number).mpr ⟨usable.primitiveHz, usable.primitive_le⟩,
      ⟨usable.packetTimeout, usable.finite_packet⟩, usable.peripheralTimeout, usable.finite_peripheral⟩

/-- A rate up to the loop's is finite. -/
theorem IsUsable.finite_rate (usable : settings.IsUsable) {hz : Float} (positive : 0.0 < hz)
    (order : hz ≤ settings.loopHz) : hz.isFinite = true :=
  Double.isFinite_of_le (Double.parts_of_pos positive).1 (Double.parts_of_pos usable.loopHz).1 order usable.finite

end LoopSettings

theorem Duration.ofSeconds_ok_iff {s : Float} (number : s.isNaN = false) (unsigned : Double.isNegative s = false) :
    (∃ d, ofSeconds s = .ok d) ↔ s < 18446744073709551616.0 := by
  have forward : ¬ s < 0.0 := by
    rw [Double.lt_iff_magnitude number (by decide) unsigned (by decide), show Double.magnitude 0.0 = 0 by decide]
    exact Nat.not_lt_zero _
  unfold ofSeconds
  rw [if_neg forward]
  constructor
  · rintro ⟨d, same⟩
    split at same
    · next bounded => exact bounded.2
    · contradiction
  · intro less
    have finite := Double.isFinite_of_le unsigned (by decide) (Double.le_of_lt less) (by decide)
    exact ⟨_, if_pos ⟨finite, less⟩⟩

namespace ControlLoop

/-- The least number of milliseconds of which the whole seconds have more than 64 bits. -/
def timeoutLimit : Float := 18446744073709551616000.0

theorem timeoutOf_ok_iff {ms : Float} (positive : 0.0 < ms) (finite : ms.isFinite = true) :
    (∃ timeout, timeoutOf ms = .ok timeout) ↔ ms < timeoutLimit := by
  have second : (0.0 : Float) < 1000.0 := by decide
  have same : (1000.0 : Float) ≤ 1000.0 := by decide
  obtain ⟨number, unsigned⟩ := Double.div_parts positive second finite (by decide)
  unfold timeoutOf
  rw [Duration.ofSeconds_ok_iff number unsigned]
  -- A shorter timeout has no more seconds, so the division has to be done only on both sides of the limit.
  have limit : Double.Precedes 18446744073709549518848.0 timeoutLimit := by decide
  refine limit.holds_iff (P := fun ms => ms / 1000.0 < 18446744073709551616.0) ?_ (by decide) (by decide +kernel)
    positive finite
  intro shorter longer some order top less
  exact Double.lt_of_le_of_lt (Double.div_le_div some order top second same (by decide)) less

/-- No cycle of a run comes to a fault, unless there have been as many as can be counted. -/
def RunsOn (first : ControlLoop) : Prop :=
  ∀ inputs reports l input fault, Driven first inputs reports l → l.cycle input = .error fault →
    fault = .addOverflow ∧ inputs.length + 1 = 0x10000000000000000

theorem runsOn_iff {settings : LoopSettings} (fresh : Fresh robot settings timeout start first) :
    first.RunsOn ↔ ∃ timeout, timeoutOf settings.peripheralTimeoutMs = .ok timeout := by
  constructor
  · intro runs
    cases judged : timeoutOf settings.peripheralTimeoutMs with
    | ok timeout => exact ⟨timeout, rfl⟩
    | error fault =>
      -- The timeout is converted in every cycle, so already in the first.
      have spec := first.cycle_spec (.quiet 0)
      rw [fresh.settings, judged] at spec
      have last := (runs [] [] first (.quiet 0) fault .opened spec).2
      exact absurd last (by decide)
  · rintro ⟨timeout, judged⟩ inputs reports l input fault driven failed
    have counted := (driven.follows fresh).cycles
    have spec := l.cycle_spec input
    rw [driven.settings, fresh.settings, judged] at spec
    cases more : addUInt64 l.store.cycles 1 with
    | ok cycles =>
      rw [more] at spec
      obtain ⟨after, report, ended, -⟩ := spec
      exact nomatch failed.symm.trans ended
    | error e =>
      rw [more] at spec
      cases failed.symm.trans spec
      obtain ⟨same, full⟩ := addUInt64_eq_error more
      have bound := l.store.cycles.toNat_lt
      rw [counted] at full bound
      change 0x10000000000000000 ≤ inputs.length + 1 at full
      exact ⟨same, by omega⟩

/-- A loop with usable settings opens, and none of its cycles comes to a fault, just if the seconds of both timeouts
have 64 bits. -/
theorem timeouts_usable_iff {settings : LoopSettings} (checked : settings.check = .ok ()) (robot : RobotSettings)
    (files : String → Option FileNode) (start : Instant) :
    (∃ first lines, new robot settings files start = .ok (first, lines) ∧ first.RunsOn) ↔
      settings.packetTimeoutMs < timeoutLimit ∧ settings.peripheralTimeoutMs < timeoutLimit := by
  have usable := LoopSettings.check_eq_ok_iff.mp checked
  rw [← timeoutOf_ok_iff usable.packetTimeout usable.finite_packet,
    ← timeoutOf_ok_iff usable.peripheralTimeout usable.finite_peripheral]
  constructor
  · rintro ⟨first, lines, opened, runs⟩
    cases time : timeoutOf settings.packetTimeoutMs with
    | error fault =>
      simp only [new, time] at opened
      contradiction
    | ok timeout => exact ⟨⟨timeout, rfl⟩, (runsOn_iff (fresh time opened)).mp runs⟩
  · rintro ⟨⟨timeout, time⟩, judged⟩
    obtain ⟨first, lines, opened, fresh⟩ := new_ok robot files start time
    exact ⟨first, lines, opened, (runsOn_iff fresh).mpr judged⟩

/-- Timeouts that pass the check, one of which stops the loop before it opens and one in its first cycle. -/
theorem long_timeouts_fail :
    { LoopSettings.secondly with packetTimeoutMs := 1e200 }.check = .ok () ∧
      new .seventh { LoopSettings.secondly with packetTimeoutMs := 1e200 } (fun _ => none) 0 =
        .error .secondsOutOfRange ∧
      { LoopSettings.secondly with peripheralTimeoutMs := 1e200 }.check = .ok () ∧
      ∃ first lines, new .seventh { LoopSettings.secondly with peripheralTimeoutMs := 1e200 } (fun _ => none) 0 =
          .ok (first, lines) ∧
        first.cycle (.quiet 0) = .error .secondsOutOfRange := by
  have long : timeoutOf 1e200 = .error .secondsOutOfRange := by decide +kernel
  refine ⟨by decide +kernel, ?_, by decide +kernel, ?_⟩
  · unfold new
    simp only [long]
    rfl
  · obtain ⟨first, lines, opened, fresh⟩ := @new_ok _ { LoopSettings.secondly with peripheralTimeoutMs := 1e200 }
      .seventh (fun _ => none) 0 timeoutOf_second
    have spec := first.cycle_spec (.quiet 0)
    simp only [fresh.settings, long] at spec
    exact ⟨first, lines, opened, spec⟩

theorem timeouts_usable_of_a_second : LoopSettings.secondly.check = .ok () ∧
    ∃ first lines, new .seventh .secondly (fun _ => none) 0 = .ok (first, lines) ∧ first.RunsOn := by
  have checked : LoopSettings.secondly.check = .ok () := by decide
  exact ⟨checked, (timeouts_usable_iff checked .seventh (fun _ => none) 0).mpr ⟨by decide, by decide⟩⟩

end ControlLoop

namespace RoundTrips

/-- The least number of sets for a status of which the records no longer have room. -/
def setsLimit : Float := 96076792050570592.0

theorem toNat_ceil_of_lt {q : Float} (sign : Double.isNegative q = false) (less : q < setsLimit) :
    (Double.ceil q).toUInt64.toNat = ⌈(Double.scaled q).value⌉₊ ∧
      (Double.ceil q).toUInt64.toNat ≤ 96076792050570576 := by
  have limit : Double.Precedes 96076792050570576.0 setsLimit := by decide
  have order := limit.le_of_lt sign less
  have values := Double.value_le sign (by decide) order
  have top : (Double.scaled 96076792050570576.0).value = (96076792050570576 : ℕ) := by
    rw [show Double.scaled 96076792050570576.0 = ⟨6004799503160661, 4⟩ by decide]
    norm_num [Scaled.value]
  have few : ⌈(Double.scaled q).value⌉₊ ≤ 96076792050570576 := Nat.ceil_le.mpr (values.trans_eq top)
  rw [Double.toNat_ceil (Double.isFinite_of_le sign (by decide) order (by decide)) sign]
  have small : ⌈(Double.scaled q).value⌉₊ ≤ Double.greatest := few.trans (by decide)
  exact ⟨Nat.min_eq_right small, (Nat.min_le_right ..).trans few⟩

theorem le_toNat_ceil {q : Float} (sign : Double.isNegative q = false) (order : setsLimit ≤ q) :
    96076792050570592 ≤ (Double.ceil q).toUInt64.toNat := by
  cases finite : q.isFinite with
  | false =>
    have kept : Double.ceil q = q := if_neg (Bool.eq_false_iff.mp finite)
    rw [kept, Double.toNat_toUInt64_infinite (Double.number_of_le order).2 finite sign]
    decide
  | true =>
    have values := Double.value_le (by decide) sign order
    have bottom : (Double.scaled setsLimit).value = (96076792050570592 : ℕ) := by
      rw [show Double.scaled setsLimit = ⟨6004799503160662, 4⟩ by decide]
      norm_num [Scaled.value]
    rw [Double.toNat_ceil finite sign]
    refine Nat.le_min.mpr ⟨by decide, ?_⟩
    exact_mod_cast (bottom.symm.trans_le values).trans (Nat.le_ceil _)

/-- The room is four times the sets between two statuses, just as long as records for so many can be numbered. -/
theorem forRates_eq_iff {primitiveHz statusHz : Float} (positiveP : 0.0 < primitiveHz) (positiveS : 0.0 < statusHz)
    (finiteP : primitiveHz.isFinite = true) (finiteS : statusHz.isFinite = true) :
    forRates primitiveHz statusHz =
        .ok ⟨[], recordsPerSet * max 1 ⌈(Double.scaled (primitiveHz / statusHz)).value⌉₊⟩ ↔
      primitiveHz / statusHz < setsLimit := by
  obtain ⟨number, sign⟩ := Double.div_parts positiveP positiveS finiteP finiteS
  unfold forRates
  simp only [if_pos (And.intro positiveS positiveP)]
  generalize primitiveHz / statusHz = q at *
  constructor
  · intro roomy
    by_contra many
    have least := le_toNat_ceil sign (Double.le_of_not_lt number (by decide) many)
    generalize (Double.ceil q).toUInt64.toNat = sets at *
    unfold recordsPerSet recordSize at roomy
    split at roomy
    · contradiction
    · split at roomy
      · contradiction
      · omega
  · intro less
    obtain ⟨same, few⟩ := toNat_ceil_of_lt sign less
    rw [← same]
    generalize (Double.ceil q).toUInt64.toNat = sets at *
    unfold recordsPerSet recordSize withCapacity
    rw [if_neg (by omega), if_neg (by omega)]
    congr 2
    omega

end RoundTrips

/-- The greatest interval that can be added to any number of nanoseconds within a second. -/
def longestInterval : ℤ := 0x8000000000000000 - nanosPerSecond

/-- The least frequency of which the period can be added to any time. -/
def slowestHz : Float := 1.0842021726030539e-10

theorem intervalNanos_le {hz faster : Float} (positive : 0.0 < hz) (order : hz ≤ faster)
    (finite : faster.isFinite = true) : intervalNanos faster ≤ intervalNanos hz := by
  have positiveFaster := Double.lt_of_lt_of_le positive order
  have nanos : (0.0 : Float) < 1000000000.0 := by decide
  have finiteHz := Double.isFinite_of_le (Double.parts_of_pos positive).1 (Double.parts_of_pos positiveFaster).1 order
    finite
  obtain ⟨-, sign⟩ := Double.div_parts nanos positive (by decide) finiteHz
  obtain ⟨-, signFaster⟩ := Double.div_parts nanos positiveFaster (by decide) finite
  have periods := Double.div_le_div nanos (Double.le_refl (by decide)) (by decide) positive order finite
  have rounded := Double.toNat_round_le signFaster sign periods
  unfold intervalNanos
  omega

theorem intervalNanos_le_iff {hz : Float} (positive : 0.0 < hz) (finite : hz.isFinite = true) :
    intervalNanos hz ≤ longestInterval ↔ slowestHz ≤ hz := by
  have limit : Double.Precedes 1.0842021726030538e-10 slowestHz := by decide
  rw [← Int.not_lt, ← Double.not_lt_iff (Double.number_of_isFinite finite) (by decide)]
  refine not_congr (limit.holds_iff (P := fun hz => longestInterval < intervalNanos hz) ?_ (by decide) (by decide)
    positive finite)
  intro slower faster some order top long
  exact long.trans_le (intervalNanos_le some order top)

/-- Within this time of the clock only the nanoseconds can be too many. -/
theorem forall_fits_iff {interval : ℤ} (some : 1 ≤ interval) (bound : interval < 0x8000000000000000) :
    (∀ d : Deadline, d.IsNormal → IsInt64 d.sec → d.sec ≤ 2 ^ 40 → d.Fits interval) ↔ interval ≤ longestInterval := by
  unfold longestInterval nanosPerSecond
  constructor
  · intro fits
    -- The last nanosecond of a second leaves the least room.
    have sum : IsInt64 (999999999 + interval) := (fits ⟨0, 999999999⟩ (by decide) (by decide) (by decide)).nsec
    have high := sum.2
    omega
  · rintro short ⟨sec, nsec⟩ normal far early
    obtain ⟨low, high⟩ : 0 ≤ nsec ∧ nsec < 1000000000 := normal
    obtain ⟨least, -⟩ : IsInt64 sec := far
    change sec ≤ 2 ^ 40 at early
    constructor
    · change _ ≤ nsec + interval ∧ nsec + interval < _
      omega
    · change _ ≤ sec + (nsec + interval) / 1000000000 ∧ sec + (nsec + interval) / 1000000000 < _
      omega

namespace Pacer

/-- The next deadline, one interval after the last, is there to wait for, whatever the time is then. -/
structure Advances (p : Pacer) : Prop where
  next : ∃ next, p.deadline.advance p.interval = .ok next ∧ next.IsNormal ∧
    next.toNanos = p.deadline.toNanos + p.interval
  wait : ∀ now, ∃ after s lines, p.wait now = .ok (after, s, lines)

theorem advances_iff {p : Pacer} (few : p.overruns = 0) : p.Advances ↔ p.deadline.Fits p.interval := by
  constructor
  · rintro ⟨⟨next, moved, -⟩, -⟩
    by_contra overflows
    exact nomatch moved.symm.trans (Deadline.advance_of_not_fits overflows)
  · intro fits
    constructor
    · exact ⟨_, Deadline.advance_of_fits fits, Deadline.isNormal_ofNanos _, Deadline.toNanos_ofNanos _⟩
    · intro now
      unfold wait
      rw [Schedule.after_of_fits fits, few]
      change ∃ after s lines, (if (Schedule.moved p.deadline p.interval now).overrun = true then _ else _) =
        Except.ok (after, s, lines)
      split <;> exact ⟨_, _, _, rfl⟩

end Pacer

namespace LoopSettings
variable {settings : LoopSettings}

/-- With usable settings there is room for round trips just below a number of sets for each status, and the pace is
kept from any time of the first 2 ^ 40 seconds just down to a frequency. -/
theorem rates_usable_iff (checked : settings.check = .ok ()) :
    (RoundTrips.forRates settings.primitiveHz settings.statusHz = .ok ⟨[], RoundTrips.recordsPerSet *
        max 1 ⌈(Double.scaled (settings.primitiveHz / settings.statusHz)).value⌉₊⟩ ↔
      settings.primitiveHz / settings.statusHz < RoundTrips.setsLimit) ∧
    ((∀ start : Deadline, start.IsNormal → IsInt64 start.sec → start.sec ≤ 2 ^ 40 →
        (Pacer.startingAt settings.loopHz start).Advances) ↔
      slowestHz ≤ settings.loopHz) := by
  have usable := check_eq_ok_iff.mp checked
  constructor
  · exact RoundTrips.forRates_eq_iff usable.primitiveHz usable.statusHz
      (usable.finite_rate usable.primitiveHz usable.primitive_le) (usable.finite_rate usable.statusHz usable.status_le)
  · have least : 1 ≤ intervalNanos settings.loopHz := Int.le_max_left ..
    have bound : intervalNanos settings.loopHz < 0x8000000000000000 := by
      unfold intervalNanos
      omega
    rw [← intervalNanos_le_iff usable.loopHz usable.finite, ← forall_fits_iff least bound]
    exact forall₄_congr fun start _ _ _ => Pacer.advances_iff rfl

/-- Rates that pass the check, one of which leaves no room for round trips and one no time to add a period to. -/
theorem slow_rates_fail :
    { LoopSettings.secondly with loopHz := 200.0, primitiveHz := 200.0, statusHz := 1e-200 }.check = .ok () ∧
      RoundTrips.forRates 200.0 1e-200 = .error .multiplyOverflow ∧
      { LoopSettings.secondly with loopHz := 1e-200, primitiveHz := 1e-200, statusHz := 1e-200 }.check = .ok () ∧
      (⟨0, 1⟩ : Deadline).IsNormal ∧ Deadline.advance ⟨0, 1⟩ (Pacer.startingAt 1e-200 ⟨0, 1⟩).interval =
        .error .addOverflow := by
  decide +kernel

theorem rates_usable_of_a_second : LoopSettings.secondly.check = .ok () ∧
    RoundTrips.forRates LoopSettings.secondly.primitiveHz LoopSettings.secondly.statusHz = .ok ⟨[],
      RoundTrips.recordsPerSet *
        max 1 ⌈(Double.scaled (LoopSettings.secondly.primitiveHz / LoopSettings.secondly.statusHz)).value⌉₊⟩ ∧
    ∀ start : Deadline, start.IsNormal → IsInt64 start.sec → start.sec ≤ 2 ^ 40 →
      (Pacer.startingAt LoopSettings.secondly.loopHz start).Advances := by
  have checked : LoopSettings.secondly.check = .ok () := by decide
  obtain ⟨room, pace⟩ := rates_usable_iff checked
  exact ⟨checked, room.mpr (by decide), pace.mpr (by decide)⟩

end LoopSettings

end Onboard
