import Mathlib.Data.List.DropRight
import Onboard.Proofs.Text.Search

/-! The alarm of an over-current in a log that only grows. A check finds what has come as a whole since the last check,
and only that: an alarm that was half written when one check ran is found neither by it nor by the next. -/

namespace Onboard

/-- The bytes of the alarm. -/
def alarm : Bytes :=
  Utf8.encode overCurrentMarker

/-- What happens to a log and its monitor. -/
inductive LogEvent where
  | append (bytes : Bytes)
  | check
  deriving DecidableEq

def LogEvent.bytes : LogEvent → Bytes
  | .append bytes => bytes
  | .check => []

/-- All bytes that were appended. -/
def appended (events : List LogEvent) : Bytes :=
  events.flatMap LogEvent.bytes

/-- How many bytes had been appended when the last check ran. -/
def scanned (events : List LogEvent) : Nat :=
  (appended (events.rdropWhile fun e => e ≠ .check)).length

structure WatchedLog where
  node : Option FileNode
  monitor : StabilityMonitor

namespace WatchedLog

/-- Watched from now on; the log may hold something already, or not be there yet. -/
def opened (path : String) (initial : Option Bytes) : WatchedLog :=
  ⟨initial.map .file, .new path (initial.map .file)⟩

def step (w : WatchedLog) : LogEvent → WatchedLog
  | .append bytes => { w with node := some (FileNode.appended w.node bytes) }
  | .check => { w with monitor := (w.monitor.check w.node).2.1 }

def run (w : WatchedLog) (events : List LogEvent) : WatchedLog :=
  events.foldl step w

/-- What a check would say now. -/
def isStable (w : WatchedLog) : Bool :=
  (w.monitor.check w.node).1

end WatchedLog

/-- The appended bytes hold an alarm that begins at a place. -/
def IsAlarmAt (events : List LogEvent) (i : Nat) : Prop :=
  alarm <+: (appended events).drop i

/-- An alarm has been completed since the last check. -/
def HasRung (events : List LogEvent) : Prop :=
  ∃ i, IsAlarmAt events i ∧ scanned events < i + alarm.length

/-- All of an alarm has come since the last check. -/
def HasRungWhole (events : List LogEvent) : Prop :=
  ∃ i, IsAlarmAt events i ∧ scanned events ≤ i

/-- An alarm was half written when the last check ran, and has been completed since. -/
def IsCut (events : List LogEvent) : Prop :=
  ∃ i, IsAlarmAt events i ∧ i < scanned events ∧ scanned events < i + alarm.length

theorem isPlain_alarm : ∀ b ∈ alarm, Utf8.IsPlain b := by
  unfold Utf8.IsPlain
  decide +kernel

theorem alarm_ne_nil : alarm ≠ [] := by
  decide +kernel

theorem plainChars_alarm : alarm.map Utf8.plainChar = overCurrentMarker.toList := by
  decide +kernel

theorem holdsMarker_iff (bytes : Bytes) : StabilityMonitor.holdsMarker bytes = true ↔ alarm <:+: bytes := by
  rw [StabilityMonitor.holdsMarker, occursIn_iff, ← plainChars_alarm,
    Utf8.infix_decodeLossy_iff alarm_ne_nil isPlain_alarm]

theorem infix_drop_iff {α : Type} (part l : List α) (n : Nat) :
    part <:+: l.drop n ↔ ∃ i, part <+: l.drop i ∧ n ≤ i := by
  constructor
  · rintro ⟨before, after, same⟩
    refine ⟨n + before.length, ⟨after, ?_⟩, Nat.le_add_right ..⟩
    rw [← List.drop_drop, ← same, List.append_assoc, List.drop_left]
  · rintro ⟨i, found, later⟩
    obtain ⟨k, rfl⟩ := Nat.exists_eq_add_of_le later
    rw [← List.drop_drop] at found
    exact found.isInfix.trans (List.drop_suffix ..).isInfix

theorem appended_concat (events : List LogEvent) (e : LogEvent) :
    appended (events ++ [e]) = appended events ++ e.bytes := by
  rw [appended, List.flatMap_append, List.flatMap_singleton, appended]

theorem appended_check (events : List LogEvent) : appended (events ++ [.check]) = appended events := by
  rw [appended_concat, LogEvent.bytes, List.append_nil]

theorem scanned_check (events : List LogEvent) : scanned (events ++ [.check]) = (appended events).length := by
  rw [scanned, List.rdropWhile_concat_neg _ _ _ (by decide), appended_check]

theorem scanned_append (events : List LogEvent) (bytes : Bytes) :
    scanned (events ++ [.append bytes]) = scanned events := by
  rw [scanned, List.rdropWhile_concat_pos _ _ _ rfl, scanned]

theorem scanned_le (events : List LogEvent) : scanned events ≤ (appended events).length := by
  obtain ⟨since, same⟩ := List.rdropWhile_prefix (fun e => decide (e ≠ LogEvent.check)) (l := events)
  conv_rhs => rw [← same, appended, List.flatMap_append, List.length_append]
  exact Nat.le_add_right ..

theorem StabilityMonitor.check_file (m : StabilityMonitor) (contents : Bytes) :
    (m.check (some (.file contents))).1 = !holdsMarker (contents.drop (m.scanStart contents.length)) ∧
      (m.check (some (.file contents))).2.1 = { m with offset := contents.length } := by
  unfold check
  dsimp only
  cases holdsMarker (contents.drop (m.scanStart contents.length)) <;> exact ⟨rfl, rfl⟩

namespace WatchedLog

/-- What a log and its monitor have come to. -/
structure Holds (start : Bytes) (events : List LogEvent) (w : WatchedLog) : Prop where
  node : w.node = some (.file (start ++ appended events)) ∨ w.node = none ∧ start = [] ∧ appended events = []
  offset : w.monitor.offset = start.length + scanned events

theorem Holds.opened (path : String) (initial : Option Bytes) : Holds (initial.getD []) [] (opened path initial) where
  node := by
    cases initial with
    | none => exact .inr ⟨rfl, rfl, rfl⟩
    | some bytes => exact .inl (by rw [appended, List.flatMap_nil, List.append_nil]; rfl)
  offset := by cases initial <;> rfl

theorem Holds.append (holds : Holds start events w) (bytes : Bytes) :
    Holds start (events ++ [.append bytes]) (w.step (.append bytes)) where
  node := by
    refine .inl ?_
    rw [appended_concat, step]
    rcases holds.node with file | ⟨absent, rfl, nothing⟩
    · rw [file, ← List.append_assoc]
      rfl
    · rw [absent, nothing]
      rfl
  offset := by
    rw [scanned_append]
    exact holds.offset

/-- A check reads what was appended since the last one. -/
theorem Holds.isStable (holds : Holds start events w) : w.isStable = false ↔ HasRungWhole events := by
  rcases holds.node with file | ⟨absent, -, nothing⟩
  · have fromHere : w.monitor.scanStart (start ++ appended events).length = start.length + scanned events := by
      have bound := scanned_le events
      rw [StabilityMonitor.scanStart, holds.offset, List.length_append, if_neg (by omega)]
    rw [WatchedLog.isStable, file, (w.monitor.check_file _).1, fromHere, List.drop_length_add_append,
      Bool.not_eq_false', holdsMarker_iff, infix_drop_iff]
    rfl
  · have silent : ¬ HasRungWhole events := by
      rintro ⟨i, rung, -⟩
      rw [IsAlarmAt, nothing, List.drop_nil, List.prefix_nil] at rung
      exact alarm_ne_nil rung
    rw [WatchedLog.isStable, absent]
    exact iff_of_false Bool.noConfusion silent

theorem Holds.check (holds : Holds start events w) : Holds start (events ++ [.check]) (w.step .check) := by
  constructor
  · rw [appended_check]
    exact holds.node
  · rw [scanned_check, step]
    rcases holds.node with file | ⟨absent, rfl, nothing⟩
    · rw [file, (w.monitor.check_file _).2]
      exact List.length_append
    · have unscanned := scanned_le events
      rw [nothing] at unscanned ⊢
      rw [absent]
      exact holds.offset.trans (congrArg _ (Nat.le_zero.mp unscanned))

theorem Holds.run (path : String) (initial : Option Bytes) (events : List LogEvent) :
    Holds (initial.getD []) events ((WatchedLog.opened path initial).run events) := by
  induction events using List.reverseRecOn with
  | nil => exact .opened path initial
  | append_singleton events e ih =>
    rw [WatchedLog.run, List.foldl_append, List.foldl_cons, List.foldl_nil]
    cases e with
    | append bytes => exact ih.append bytes
    | check => exact ih.check

end WatchedLog

/-- What has come as a whole has been completed; and what has been completed has come as a whole or was cut. -/
theorem hasRung_iff (events : List LogEvent) : HasRung events ↔ HasRungWhole events ∨ IsCut events := by
  have long : 0 < alarm.length := List.length_pos_iff.mpr alarm_ne_nil
  constructor
  · rintro ⟨i, rung, completed⟩
    rcases Nat.lt_or_ge i (scanned events) with early | late
    · exact .inr ⟨i, rung, early, completed⟩
    · exact .inl ⟨i, rung, late⟩
  · rintro (⟨i, rung, late⟩ | ⟨i, rung, -, completed⟩)
    · exact ⟨i, rung, by omega⟩
    · exact ⟨i, rung, completed⟩

/-- A check reports just the alarms that have come as a whole since the last check. So all checks of a run report the
alarms completed since the check before, and nothing else, exactly if no check cuts an alarm unless another one comes
as a whole before the next check. -/
theorem alarms_reported_iff (path : String) (initial : Option Bytes) (events : List LogEvent) :
    (((WatchedLog.opened path initial).run events).isStable = false ↔ HasRungWhole events) ∧
      ((∀ before after, events = before ++ .check :: after →
          (((WatchedLog.opened path initial).run before).isStable = false ↔ HasRung before)) ↔
        ∀ before after, events = before ++ .check :: after → IsCut before → HasRungWhole before) := by
  refine ⟨(WatchedLog.Holds.run path initial events).isStable, ?_⟩
  refine forall₃_congr fun before after split => ?_
  rw [(WatchedLog.Holds.run path initial before).isStable, hasRung_iff, iff_self_or]

/-- An alarm of which a check ran into the first half; neither this check nor the next reports it. -/
theorem alarm_cut_in_two :
    ¬ ∀ before after,
      [LogEvent.append (alarm.take 10), .check, .append (alarm.drop 10), .check] = before ++ .check :: after →
      (((WatchedLog.opened "kern" none).run before).isStable = false ↔ HasRung before) := by
  intro reported
  have rung : HasRung [.append (alarm.take 10), .check, .append (alarm.drop 10)] := by
    refine ⟨0, ?_, by decide +kernel⟩
    exact (List.take_append_drop 10 alarm).symm ▸ List.prefix_refl alarm
  have silent := (reported [.append (alarm.take 10), .check, .append (alarm.drop 10)] [] rfl).mpr rung
  revert silent
  decide +kernel

end Onboard
