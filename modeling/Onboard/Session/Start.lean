import Onboard.Cause
import Onboard.Host.Storage
import Onboard.Settings.Load

/-!
Sessions. A program's run has a directory of its own, named for the program and the time of its start, and the time
of its start is the epoch of its log. A program starts at most one session.
-/

namespace Onboard

structure Session where
  root : String
  auditRoot : String
  logPath : String
  deriving DecidableEq

inductive SessionError where
  | rootNotSet
  | directory (path : String) (cause : IoFailure)
  | alreadyStarted
  deriving DecidableEq

def SessionError.message : SessionError → String
  | .rootNotSet => LoadError.message .rootNotSet
  | .directory path cause => "Cannot create the session directory " ++ Text.quoted path ++ ": " ++ cause.message
  | .alreadyStarted =>
    "Cannot initialise the session epoch, has a session already been started? (conquer_once error: "
      ++ "the \x60OnceCell\x60 has already been initialized)"

instance : Cause SessionError where
  name
    | .rootNotSet => "SwRootNotSet"
    | .directory .. => "CannotCreateDir"
    | .alreadyStarted => "CannotInitEpoch"
  message := SessionError.message

namespace Session

/-- The places of a session that starts at a time, written as in names of directories. -/
def places (sessionsRoot program stamp : String) : Session :=
  let root := Path.join sessionsRoot (program ++ "_" ++ stamp)
  ⟨root, Path.join root "audit", Path.join root (program ++ ".log")⟩

/-- What one program holds between its attempts to start a session. -/
structure Ground where
  /-- The start of the session, once there is one. -/
  epoch : Option String
  files : FileTree

def create (files : FileTree) (s : Session) : Except SessionError FileTree :=
  match files.makeDirectories s.auditRoot with
  | .ok files => .ok files
  | .error cause => .error (.directory s.auditRoot cause)

/-- Starts a session below the root at a time. The epoch is set before the directories are made. -/
def start (g : Ground) (root : Option String) (program directory stamp : String) :
    Except SessionError Session × Ground :=
  match root with
  | none => (.error .rootNotSet, g)
  | some root =>
    match g.epoch with
    | some _ => (.error .alreadyStarted, g)
    | none =>
      let session := places (Path.join root directory) program stamp
      match create g.files session with
      | .ok files => (.ok session, ⟨some stamp, files⟩)
      | .error e => (.error e, ⟨some stamp, g.files⟩)

end Session

end Onboard
