import Mathlib.Data.List.Induction
import Onboard.Session.Start

/-! What attempts to start a session leave behind. The first attempt that finds a root sets the epoch, before it makes
its directories, and no later one gets any further. So if its directories cannot be made, the program has an epoch
without a session, and never a session at all. -/

namespace Onboard.Session

/-- One attempt to start a session, with the environment and the files that it meets. -/
structure Attempt where
  root : Option String
  files : FileTree
  program : String
  directory : String
  stamp : String

namespace Attempt

/-- What comes of an attempt, and the epoch after it. -/
def outcome (a : Attempt) (epoch : Option String) : Except SessionError Session × Option String :=
  let r := start ⟨epoch, a.files⟩ a.root a.program a.directory a.stamp
  (r.1, r.2.epoch)

/-- There is a root, and the directories can be made below it. -/
def CanCreate (a : Attempt) : Prop :=
  ∃ root files, a.root = some root ∧
    create a.files (places (Path.join root a.directory) a.program a.stamp) = .ok files

end Attempt

/-- The epoch of a program after these attempts. -/
def epochAfter (attempts : List Attempt) : Option String :=
  attempts.foldl (fun epoch a => (a.outcome epoch).2) none

/-- An attempt that starts a session after these ones. -/
def Attempt.Succeeds (a : Attempt) (before : List Attempt) : Prop :=
  ∃ session, (a.outcome (epochAfter before)).1 = .ok session

/-- One of these attempts has started a session. -/
def HasSession (attempts : List Attempt) : Prop :=
  ∃ before a after, attempts = before ++ a :: after ∧ a.Succeeds before

/-- Each attempt of a program starts its session or changes nothing, so that there is an epoch exactly once there is a
session; and as long as there is none, whoever can make the directories starts it. -/
structure AllOrNothing (attempts : List Attempt) : Prop where
  kept {before a after e} : attempts = before ++ a :: after → (a.outcome (epochAfter before)).1 = .error e →
    (a.outcome (epochAfter before)).2 = epochAfter before
  epoch_iff {before after} : attempts = before ++ after → ((epochAfter before).isSome ↔ HasSession before)
  succeeds {before a after} : attempts = before ++ a :: after → a.CanCreate → ¬ HasSession before → a.Succeeds before
  once {before a after} : attempts = before ++ a :: after → a.Succeeds before → ¬ HasSession before

/-- All that can come of an attempt. -/
inductive Ends (a : Attempt) (epoch : Option String) : Except SessionError Session × Option String → Prop where
  | rootless : a.root = none → Ends a epoch (.error .rootNotSet, epoch)
  | late : a.root.isSome → epoch.isSome → Ends a epoch (.error .alreadyStarted, epoch)
  | started {session : Session} : a.CanCreate → epoch = none → Ends a epoch (.ok session, some a.stamp)
  | spoilt {e : SessionError} : a.root.isSome → ¬ a.CanCreate → epoch = none → Ends a epoch (.error e, some a.stamp)

theorem ends (a : Attempt) (epoch : Option String) : Ends a epoch (a.outcome epoch) := by
  unfold Attempt.outcome start
  cases found : a.root with
  | none => exact .rootless found
  | some root =>
    have rooted : a.root.isSome := by rw [found]; rfl
    cases epoch with
    | some epoch => exact .late rooted rfl
    | none =>
      dsimp only
      cases made : create a.files (places (Path.join root a.directory) a.program a.stamp) with
      | ok files => exact .started ⟨root, files, found, made⟩ rfl
      | error e =>
        apply Ends.spoilt rooted _ rfl
        rintro ⟨other, files, same, could⟩
        cases found.symm.trans same
        cases made.symm.trans could

theorem Attempt.CanCreate.rooted {a : Attempt} (able : a.CanCreate) : a.root.isSome := by
  obtain ⟨root, files, found, -⟩ := able
  rw [found]
  rfl

def firstRooted? (attempts : List Attempt) : Option Attempt :=
  attempts.find? fun a => a.root.isSome

theorem epochAfter_concat (attempts : List Attempt) (a : Attempt) :
    epochAfter (attempts ++ [a]) = (a.outcome (epochAfter attempts)).2 := by
  rw [epochAfter, List.foldl_append]
  rfl

/-- An attempt with a root sets the epoch, unless there is one. -/
theorem epoch_outcome (a : Attempt) (epoch : Option String) :
    (a.outcome epoch).2 = epoch.or (if a.root.isSome then some a.stamp else none) := by
  have ends := ends a epoch
  generalize a.outcome epoch = outcome at ends
  cases ends with
  | rootless unset => simp [unset]
  | late rooted set =>
    obtain ⟨stamp, rfl⟩ := Option.isSome_iff_exists.mp set
    rfl
  | started able none => simp [able.rooted, none]
  | spoilt rooted unable none => simp [rooted, none]

/-- The first attempt with a root sets the epoch for good. -/
theorem epochAfter_eq (attempts : List Attempt) : epochAfter attempts = (firstRooted? attempts).map Attempt.stamp := by
  induction attempts using List.reverseRecOn with
  | nil => rfl
  | append_singleton attempts a ih =>
    rw [epochAfter_concat, epoch_outcome, ih, firstRooted?, firstRooted?, List.find?_append, Option.map_or]
    cases rooted : a.root.isSome <;> simp [rooted]

theorem epochAfter_eq_none_iff (attempts : List Attempt) :
    epochAfter attempts = none ↔ firstRooted? attempts = none := by
  rw [epochAfter_eq, Option.map_eq_none_iff]

/-- An attempt starts a session if it can make the directories and no attempt with a root came before. -/
theorem succeeds_iff (a : Attempt) (before : List Attempt) :
    a.Succeeds before ↔ a.CanCreate ∧ firstRooted? before = none := by
  rw [← epochAfter_eq_none_iff]
  have ends := ends a (epochAfter before)
  unfold Attempt.Succeeds
  generalize a.outcome (epochAfter before) = outcome at ends
  cases ends with
  | rootless unset =>
    apply iff_of_false nofun
    rintro ⟨able, -⟩
    have rooted := able.rooted
    rw [unset] at rooted
    cases rooted
  | late rooted set =>
    apply iff_of_false nofun
    rintro ⟨-, none⟩
    rw [none] at set
    cases set
  | @started session able none => exact iff_of_true ⟨session, rfl⟩ ⟨able, none⟩
  | spoilt rooted unable =>
    apply iff_of_false nofun
    rintro ⟨able, -⟩
    exact unable able

/-- A session has set the epoch. -/
theorem HasSession.isSome_firstRooted? {attempts : List Attempt} (session : HasSession attempts) :
    (firstRooted? attempts).isSome := by
  obtain ⟨before, a, after, rfl, succeeds⟩ := session
  have rooted := ((succeeds_iff a before).mp succeeds).1.rooted
  apply List.find?_isSome.mpr
  exact ⟨a, List.mem_append_right before List.mem_cons_self, rooted⟩

/-- Whatever becomes of a program's attempts, one of them starts a session at most. -/
theorem Attempt.Succeeds.first {a : Attempt} {before : List Attempt} (succeeds : a.Succeeds before) :
    ¬ HasSession before := by
  intro session
  have rooted := session.isSome_firstRooted?
  rw [((succeeds_iff a before).mp succeeds).2] at rooted
  cases rooted

theorem firstRooted?_append {before after : List Attempt} {a : Attempt} (found : firstRooted? before = some a) :
    firstRooted? (before ++ after) = some a := by
  unfold firstRooted? at *
  rw [List.find?_append, found, Option.some_or]

theorem firstRooted?_split {before after : List Attempt} {a : Attempt} (none : firstRooted? before = none)
    (rooted : a.root.isSome) : firstRooted? (before ++ a :: after) = some a := by
  unfold firstRooted? at *
  rw [List.find?_append, none, Option.none_or]
  exact List.find?_cons_of_pos rooted

theorem exists_split {attempts : List Attempt} {a : Attempt} (first : firstRooted? attempts = some a) :
    a.root.isSome ∧ ∃ before after, attempts = before ++ a :: after ∧ firstRooted? before = none := by
  obtain ⟨rooted, before, after, split, rootless⟩ := List.find?_eq_some_iff_append.mp first
  refine ⟨rooted, before, after, split, List.find?_eq_none.mpr ?_⟩
  intro b member found
  have unset := rootless b member
  rw [found] at unset
  cases unset

/-- If the first attempt with a root can make its directories, it starts the session, and only it touches the epoch. -/
theorem allOrNothing_of_able {attempts : List Attempt} (able : ∀ a, firstRooted? attempts = some a → a.CanCreate) :
    AllOrNothing attempts := by
  constructor
  case kept =>
    rintro before a after e rfl failed
    have ends := ends a (epochAfter before)
    generalize a.outcome (epochAfter before) = outcome at *
    cases ends with
    | rootless | late => rfl
    | started => cases failed
    | spoilt rooted unable none =>
      have first : firstRooted? (before ++ a :: after) = some a :=
        firstRooted?_split ((epochAfter_eq_none_iff before).mp none) rooted
      exact absurd (able a first) unable
  case epoch_iff =>
    rintro before after rfl
    rw [epochAfter_eq, Option.isSome_map]
    constructor
    · intro set
      obtain ⟨a, first⟩ := Option.isSome_iff_exists.mp set
      obtain ⟨-, earlier, later, split, rootless⟩ := exists_split first
      exact ⟨earlier, a, later, split, (succeeds_iff a earlier).mpr ⟨able a (firstRooted?_append first), rootless⟩⟩
    · exact HasSession.isSome_firstRooted?
  case succeeds =>
    rintro before a after rfl can unstarted
    refine (succeeds_iff a before).mpr ⟨can, ?_⟩
    by_contra set
    obtain ⟨b, first⟩ := Option.ne_none_iff_exists'.mp set
    obtain ⟨-, earlier, later, rfl, rootless⟩ := exists_split first
    have succeeds := (succeeds_iff b earlier).mpr ⟨able b (firstRooted?_append first), rootless⟩
    exact unstarted ⟨earlier, b, later, rfl, succeeds⟩
  case once =>
    rintro before a after - succeeds
    exact succeeds.first

/-- A program's attempts are all or nothing exactly if the first of them that finds a root, should there be one, can
make its directories. -/
theorem starts_all_or_nothing_iff (attempts : List Attempt) :
    AllOrNothing attempts ↔ ∀ a, firstRooted? attempts = some a → a.CanCreate := by
  constructor
  · intro whole a first
    obtain ⟨rooted, before, after, split, rootless⟩ := exists_split first
    have none := (epochAfter_eq_none_iff before).mpr rootless
    have ends := ends a (epochAfter before)
    have kept := fun e => whole.kept (e := e) split
    generalize a.outcome (epochAfter before) = outcome at *
    cases ends with
    | rootless unset =>
      rw [unset] at rooted
      cases rooted
    | late _ set =>
      rw [none] at set
      cases set
    | started able => exact able
    | spoilt =>
      rw [none] at kept
      cases kept _ rfl
  · exact allOrNothing_of_able

/-- A file stands where the sessions of the first attempt should go. -/
def blocked : FileTree :=
  .ofNodes [("/home/robot/sessions", .file [])]

/-- The first attempt fails and leaves an epoch, so the second one fails too, although its directories can be made. -/
theorem failed_attempt_takes_epoch :
    let first : Attempt := ⟨some "/home/robot", blocked, "robot_exec", "sessions", "20200101_000000"⟩
    let second : Attempt := ⟨some "/home/robot", blocked, "robot_exec", "runs", "20200101_000001"⟩
    (first.outcome none).1.isOk = false ∧ epochAfter [first] = some "20200101_000000" ∧
      second.CanCreate ∧ (second.outcome (epochAfter [first])).1 = .error .alreadyStarted ∧
      ¬ AllOrNothing [first, second] := by
  intro first second
  have failed : (first.outcome none).1 =
      .error (.directory "/home/robot/sessions/robot_exec_20200101_000000/audit" .notADirectory) := by decide +kernel
  have epoch : epochAfter [first] = some "20200101_000000" := by decide +kernel
  have able : second.CanCreate := by
    have made : (create blocked
        (places (Path.join "/home/robot" "runs") "robot_exec" "20200101_000001")).isOk = true := by
      decide +kernel
    match found : create blocked (places (Path.join "/home/robot" "runs") "robot_exec" "20200101_000001") with
    | .ok files => exact ⟨"/home/robot", files, rfl, found⟩
    | .error e => simp [found, Except.isOk, Except.toBool] at made
  refine ⟨?_, epoch, able, ?_, ?_⟩
  · rw [failed]
    rfl
  · rw [epoch]
    rfl
  · intro whole
    have split : [first, second] = [] ++ first :: [second] := rfl
    have kept : epochAfter [first] = none := whole.kept split failed
    cases epoch.symm.trans kept

end Onboard.Session
