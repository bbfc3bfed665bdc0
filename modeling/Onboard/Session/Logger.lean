import Onboard.Cause
import Onboard.Host.Storage
import Onboard.Log
import Onboard.Number.Layout
import Onboard.Text.Quoted

/-!
The program's log, on its output and in the file of its session. Lines up to the severity of information are short;
what is more verbose tells where it comes from.
-/

namespace Onboard

inductive LevelFilter where
  | off
  | upTo (level : Level)
  deriving DecidableEq

namespace LevelFilter

def all : List LevelFilter := .off :: Level.all.map .upTo

def verbosity : LevelFilter → Nat
  | .off => 0
  | .upTo level => level.verbosity

def capitals : LevelFilter → String
  | .off => "OFF"
  | .upTo level => level.capitals

def name : LevelFilter → String
  | .off => "Off"
  | .upTo level => level.name

end LevelFilter

structure LogRecord where
  level : Level
  /-- The part of the program that speaks, as a path of names. -/
  target : String
  message : String
  thread : Option String
  deriving DecidableEq

def LogRecord.ofLine (target : String) (thread : Option String) (l : LogLine) : LogRecord :=
  ⟨l.level, target, l.message, thread⟩

inductive LoggerError where
  | levelTooLow (found : LevelFilter)
  | file (cause : IoFailure)
  | alreadySet
  deriving DecidableEq

def LoggerError.message : LoggerError → String
  | .levelTooLow found => "Expected a log level of at least \x60INFO\x60, found \x60" ++ found.capitals ++ "\x60"
  | .file cause => "Error initialising the log file: " ++ cause.message
  | .alreadySet =>
    "An error occured while setting up the logger: "
      ++ "attempted to set a logger after the logging system was already initialized"

instance : Cause LoggerError where
  name
    | .levelTooLow _ => "InvalidMinLogLevel"
    | .file _ => "LogFileInitError"
    | .alreadySet => "FernInitError"
  message := LoggerError.message

structure Logger where
  filter : LevelFilter
  coloured : Bool
  deriving DecidableEq

namespace Logger

/-- Parts that are too talkative below information. -/
def cappedTargets : List String := ["zmq", "serialport"]

/-- The path above, up to the last pair of colons; read and written backwards. -/
def parentReversed? : List Char → Option (List Char)
  | ':' :: ':' :: above => some above
  | _ :: rest => parentReversed? rest
  | [] => none

theorem length_of_parentReversed? {path above : List Char} (h : parentReversed? path = some above) :
    above.length < path.length := by
  fun_induction parentReversed? path with
  | case1 above' => obtain rfl := Option.some.inj h; simp only [List.length_cons]; omega
  | case2 _ rest _ ih => have := ih h; simp only [List.length_cons]; omega
  | case3 => simp at h

/-- Whether a path, written backwards, or a path above it is one of the capped targets. -/
def isCappedReversed (path : List Char) : Bool :=
  cappedTargets.contains (String.ofList path.reverse) ||
    match _found : parentReversed? path with
    | some above => isCappedReversed above
    | none => false
termination_by path.length
decreasing_by exact length_of_parentReversed? _found

def isCapped (target : String) : Bool :=
  isCappedReversed target.toList.reverse

def lets (l : Logger) (r : LogRecord) : Bool :=
  r.level.verbosity ≤ l.filter.verbosity && (!isCapped r.target || r.level.verbosity ≤ Level.info.verbosity)

def styled (code text : String) : String :=
  "\x1b[" ++ code ++ "m" ++ text ++ "\x1b[0m"

def levelText (coloured : Bool) (level : Level) : String :=
  let text (code name : String) : String := if coloured then styled code name else name
  match level with
  | .trace => text "2;3" "TRC"
  | .debug => text "2" "DBG"
  | .info => "INF"
  | .warn => text "33" "WRN"
  | .error => text "1;31" "ERR"

/-- The time of a line: seconds with six places, ten characters wide; without a session it is not a number. -/
def timeText (elapsed : Option Float) : String :=
  let text := match elapsed with
    | some seconds => Layout.fixed 6 seconds
    | none => "NaN"
  String.ofList (Text.padLeft 10 ' ' text.toList)

/-- A record's text, which a line feed in the message breaks into several lines. -/
def format (l : Logger) (time : String) (r : LogRecord) : String :=
  let head := "[" ++ time ++ " " ++ levelText l.coloured r.level ++ "] "
  if Level.info.verbosity < r.level.verbosity then
    head ++ r.target ++ " (" ++ r.thread.getD "?" ++ "): " ++ r.message
  else head ++ r.message

def lines (l : Logger) (time : String) (records : List LogRecord) : List String :=
  (records.filter l.lets).map (l.format time)

def ownTarget : String := "logger"

def opening (l : Logger) (epoch : Option String) (path : String) : List LogRecord :=
  let info (message : String) : LogRecord := ⟨.info, ownTarget, message, none⟩
  [info "Logging initialised"] ++ (epoch.map fun e => info ("    Session epoch: " ++ e)).toList
    ++ [info ("    Log level: " ++ l.filter.name), info ("    Log file path: " ++ Text.quoted path)]

def openFile (files : FileTree) (path : String) : Except LoggerError FileTree :=
  (files.keep path).mapError .file

/-- Sets up the log of a program, which has at most one. The file is opened even if there is a log already. -/
def init (current : Option Logger) (wanted : Logger) (files : FileTree) (path : String) :
    Except LoggerError Logger × FileTree :=
  if wanted.filter.verbosity < Level.info.verbosity then (.error (.levelTooLow wanted.filter), files)
  else
    match openFile files path with
    | .error e => (.error e, files)
    | .ok files =>
      match current with
      | some _ => (.error .alreadySet, files)
      | none => (.ok wanted, files)

end Logger

/-- What a program's log has shown, on its output and in its file. -/
structure LogBook where
  logger : Option Logger
  files : FileTree
  printed : List String
  logged : List String

namespace LogBook

def empty (files : FileTree) : LogBook := ⟨none, files, [], []⟩

/-- Records go to the output and to the file, once there is a log. -/
def write (b : LogBook) (time : String) (records : List LogRecord) : LogBook :=
  match b.logger with
  | some logger =>
    let lines := logger.lines time records
    { b with printed := b.printed ++ lines, logged := b.logged ++ lines }
  | none => b

/-- Sets the log up; a failure is printed in the words of whoever asked. -/
def setUp (b : LogBook) (wanted : Logger) (path : String) (epoch : Option String) (time : String)
    (words : LoggerError → String) : LogBook :=
  match Logger.init b.logger wanted b.files path with
  | (.ok logger, files) => ({ b with logger := some logger, files := files }).write time (logger.opening epoch path)
  | (.error e, files) => { b with files := files, printed := b.printed ++ [words e] }

end LogBook

end Onboard
