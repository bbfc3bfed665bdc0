import Onboard.Proofs.Loop.Alarm

/-! The alarm in a log that is rotated: it is replaced or removed, and comes back with any contents. A check that finds
the log shorter than what has been scanned has it scanned anew, from its first byte. A check that finds no log at all
leaves no trace, so that a log which comes back at its old length or longer is scanned from the old offset on. -/

namespace Onboard

/-- What happens to a log that may be rotated; a log that is replaced by nothing is removed. -/
inductive LogTurn where
  | append (bytes : Bytes)
  | replace (node : Option FileNode)
  | check
  deriving DecidableEq

namespace WatchedLog

def turn (w : WatchedLog) : LogTurn → WatchedLog
  | .append bytes => { w with node := some (FileNode.appended w.node bytes) }
  | .replace node => { w with node := node }
  | .check => { w with monitor := (w.monitor.check w.node).2.1 }

def after (w : WatchedLog) (turns : List LogTurn) : WatchedLog :=
  turns.foldl turn w

/-- The log is there and shorter than what has been scanned. -/
def isShort (w : WatchedLog) : Bool :=
  w.node.any fun node => node.length < w.monitor.offset

def isReadable (w : WatchedLog) : Bool :=
  match w.node with
  | some (.file _) => true
  | some .directory | none => false

/-- A check of these turns, or one at their end, finds the log short. -/
def findsShort (w : WatchedLog) : List LogTurn → Bool
  | [] => w.isShort
  | t :: rest => (t = .check && w.isShort) || (w.turn t).findsShort rest

/-- No check of these turns can read the log. -/
def readsNothing (w : WatchedLog) : List LogTurn → Bool
  | [] => true
  | t :: rest => !(t = .check && w.isReadable) && (w.turn t).readsNothing rest

/-- After some turns the log is a file, which no check of them could read: a check at their end is the first that
can. -/
structure Returns (w : WatchedLog) (turns : List LogTurn) (contents : Bytes) : Prop where
  unread : w.readsNothing turns = true
  node : (w.after turns).node = some (.file contents)

/-- Where a check begins that finds something. -/
theorem scanStart_eq {w : WatchedLog} {found : FileNode} (there : w.node = some found) :
    w.monitor.scanStart found.length = if w.isShort then 0 else w.monitor.offset := by
  simp [isShort, there, StabilityMonitor.scanStart]

/-- A check without a log leaves no trace. -/
theorem turn_check_missing {w : WatchedLog} (missing : w.node = none) : w.turn .check = w := by
  obtain ⟨node, monitor⟩ := w
  cases missing
  rfl

/-- A check that cannot read the log goes back to the first byte if it finds the log short. -/
theorem offset_turn_check {w : WatchedLog} (unread : w.isReadable = false) :
    (w.turn .check).monitor.offset = if w.isShort then 0 else w.monitor.offset := by
  match found : w.node with
  | none => simp [turn_check_missing found, isShort, found]
  | some .directory =>
    rw [← scanStart_eq found]
    simp only [turn, found]
    rfl
  | some (.file contents) => simp [isReadable, found] at unread

/-- One turn in which no check reads the log. -/
theorem readsNothing_cons {w : WatchedLog} {t : LogTurn} {rest : List LogTurn}
    (unread : w.readsNothing (t :: rest) = true) :
    (w.turn t).readsNothing rest = true ∧
      (w.turn t).monitor.offset = if t = .check && w.isShort then 0 else w.monitor.offset := by
  rw [readsNothing, Bool.and_eq_true] at unread
  refine ⟨unread.2, ?_⟩
  cases t with
  | append bytes => rfl
  | replace node => rfl
  | check =>
    have blocked : w.isReadable = false := by simpa using unread.1
    simpa using offset_turn_check blocked

/-- The offset stays where it is until the log is found short. -/
theorem Returns.scanStart_eq (returns : Returns w turns contents) :
    (w.after turns).monitor.scanStart contents.length = if w.findsShort turns then 0 else w.monitor.offset := by
  induction turns generalizing w with
  | nil => exact WatchedLog.scanStart_eq returns.node
  | cons t rest ih =>
    obtain ⟨unread, offset⟩ := readsNothing_cons returns.unread
    have ended := ih ⟨unread, returns.node⟩
    rw [offset] at ended
    rw [findsShort]
    refine ended.trans ?_
    cases (t = .check && w.isShort : Bool) <;> simp

/-- The first check that can read a log again begins at its first byte exactly if it or a check before it, which could
not read the log, has found it shorter than what had been scanned, or if nothing had been scanned; otherwise it begins
where scanning had left off. It finds the alarm exactly if that stands behind where it begins. So a check that finds the
log shorter has it scanned anew, whereas one that finds no log is forgotten. -/
theorem returning_log_rescanned_iff (returns : Returns w turns contents) :
    ((w.after turns).monitor.scanStart contents.length = 0 ↔
        w.monitor.offset = 0 ∨ w.findsShort turns = true) ∧
      ((w.after turns).isStable = false ↔
        alarm <:+: contents.drop (if w.findsShort turns then 0 else w.monitor.offset)) ∧
      (w.isShort = true → turns.headD .check = .check → w.findsShort turns = true) ∧
      (w.node = none → w.turn .check = w) := by
  have start := returns.scanStart_eq
  refine ⟨?_, ?_, ?_, turn_check_missing⟩
  · rw [start]
    cases w.findsShort turns <;> simp
  · rw [isStable, returns.node, (StabilityMonitor.check_file _ contents).1, start, Bool.not_eq_false', holdsMarker_iff]
  · intro short begins
    cases turns with
    | nil => exact short
    | cons t rest =>
      obtain rfl : t = .check := begins
      simp [findsShort, short]

/-- A log of forty bytes gives way to one that is just the alarm. -/
theorem shorter_log_rescanned :
    let w := (opened "kern" (some (List.replicate 40 0x61))).after [.replace (some (.file alarm))]
    Returns w [] alarm ∧ w.isStable = false := by
  intro w
  have returns : Returns w [] alarm := ⟨rfl, rfl⟩
  refine ⟨returns, (returning_log_rescanned_iff returns).2.1.mpr ?_⟩
  have short : w.findsShort [] = true := by decide +kernel
  simp only [if_pos short, List.drop_zero]
  exact List.infix_refl _

/-- A log of one byte is removed, a check finds none, and a log comes that is just the alarm: its first byte is skipped,
and the alarm is not found. -/
theorem missing_log_forgotten :
    let w := (opened "kern" (some [0x61])).after [.replace none]
    ¬ ∀ turns contents, w.node = none ∨ w.isShort = true → turns.headD .check = .check →
      Returns w turns contents → alarm <:+: contents → (w.after turns).isStable = false := by
  intro w promised
  have returns : Returns w [.check, .replace (some (.file alarm))] alarm := ⟨rfl, rfl⟩
  have unstable := promised _ alarm (.inl rfl) rfl returns (List.infix_refl _)
  have stable : (w.after [.check, .replace (some (.file alarm))]).isStable = true := by decide +kernel
  exact Bool.noConfusion (stable.symm.trans unstable)

end WatchedLog

end Onboard
