import Onboard.Datagram.Sender
import Onboard.Session.Logger
import Onboard.Session.Start
import Onboard.Settings.Load

/-!
The start of the robot's program, up to its wait for the network: the session, the log, the settings from their files,
and whether they are usable. `Startup.run` tells what is logged on the way and, if the start fails, why.
-/

namespace Onboard

inductive StartupError where
  | session (cause : SessionError)
  | logging (cause : LoggerError)
  | loading (group : String) (cause : LoadError)
  | unusable (group : String) (cause : SettingsError)
  deriving DecidableEq

namespace StartupError

def context : StartupError → String
  | .session _ => "Failed to create the session"
  | .logging _ => "Failed to initialise logging"
  | .loading group _ => "Could not load " ++ group ++ " params"
  | .unusable group _ => "Invalid " ++ group ++ " params"

def cause : StartupError → String
  | .session e => e.message
  | .logging e => e.message
  | .loading _ e => e.message
  | .unusable _ e => e.message

/-- The lines of the report, each one the cause of the line before. -/
def chain (e : StartupError) : List String :=
  ["0: " ++ e.context, "1: " ++ e.cause]

end StartupError

structure RobotProgram where
  robot : RobotSettings
  network : NetworkSettings
  controlLoop : LoopSettings
  power : PowerSettings

/-- How far the start has come. -/
structure Startup where
  log : List LogLine
  outcome : Except StartupError RobotProgram

namespace Startup

def program : String := "robot_exec"

def sessionsDirectory : String := "sessions"

/-- The program's own log lets all through that is no more verbose than this. -/
def filter : LevelFilter := .upTo .debug

structure Opened where
  session : Session
  logger : Logger

def openLog (g : Session.Ground) (root : Option String) (stamp : String) : Except StartupError (Opened × FileTree) :=
  match Session.start g root program sessionsDirectory stamp with
  | (.error e, _) => .error (.session e)
  | (.ok session, g) =>
    match Logger.init none ⟨filter, false⟩ g.files session.logPath with
    | (.ok logger, files) => .ok (⟨session, logger⟩, files)
    | (.error e, _) => .error (.logging e)

/-- The texts of the log with the time of each line: what the log says of itself, and what the program says. -/
def texts (o : Opened) (epoch time : String) (log : List LogLine) : List String :=
  o.logger.lines time
    (o.logger.opening (some epoch) o.session.logPath ++ log.map (LogRecord.ofLine program (some "main")))

/-- What the program says once it can; each of the lines is followed by an empty one. -/
def greeting (s : Session) : List LogLine :=
  [.info "Thunderbots Robot Executable\n", .info ("Session directory: " ++ Text.quoted s.root ++ "\n")]

def load {α : Type} [Loadable α] (root : Option String) (group : String)
    (read : String → Except IoFailure String) : Except StartupError α :=
  (loadSettings root (group ++ ".toml") read).mapError (.loading group)

def ensure (group : String) (check : Except SettingsError Unit) : Except StartupError Unit :=
  check.mapError (.unusable group)

/-- The groups of settings in the order in which their files are read. -/
def groups : List String := ["robot", "net", "thunderloop", "power"]

/-- All files are read before any settings are looked at. -/
def settings (root : Option String) (read : String → Except IoFailure String) : Except StartupError RobotProgram := do
  let robot ← load root "robot" read
  let network ← load root "net" read
  let controlLoop ← load root "thunderloop" read
  let power ← load root "power" read
  ensure "robot" (RobotSettings.check robot)
  ensure "thunderloop" (LoopSettings.check controlLoop)
  ensure "power" (PowerSettings.check power)
  return ⟨robot, network, controlLoop, power⟩

def loadedLine (s : RobotSettings) : LogLine :=
  .info (s!"Parameters loaded, robot {s.robotId} on channel {s.channel} via " ++ s.networkInterface)

def run (s : Session) (root : Option String) (read : String → Except IoFailure String) : Startup :=
  match settings root read with
  | .ok p => ⟨greeting s ++ [loadedLine p.robot], .ok p⟩
  | .error e => ⟨greeting s, .error e⟩

/-- Whether an empty datagram can be sent to the robot's channel, which is tried until it succeeds. -/
def reachNetwork (p : RobotProgram) (host : NetworkHost) : Except (Option DatagramError) Unit :=
  match Channel.group? p.robot.channel.toNat with
  | none => .error none
  | some group => (DatagramSender.probe host group p.network.testPort (some p.robot.networkInterface)).mapError some

/-- What is said when an attempt fails, which only the first one does. -/
def unreachedLines (attempts : Nat) (cause : Option DatagramError) : List LogLine :=
  match attempts, cause with
  | 0, some e => [.warn ("Network not ready: " ++ e.message)]
  | _, _ => []

def reachedLine (attempts : Nat) : LogLine :=
  .info s!"Network ready after {attempts} retries"

def firstAttempt (p : RobotProgram) (host : NetworkHost) : List LogLine :=
  match reachNetwork p host with
  | .ok () => [reachedLine 0]
  | .error cause => unreachedLines 0 cause

/-- The whole start on a computer with these files, up to the first attempt to reach the network: the texts of the
log, and why the start failed if it did. -/
def onComputer (host : NetworkHost) (files : FileTree) (root : Option String) (stamp epoch time : String) :
    List String × Option StartupError :=
  match openLog ⟨none, files⟩ root stamp with
  | .error e => ([], some e)
  | .ok (opened, files) =>
    let start := run opened.session root fun path => files.readText path
    match start.outcome with
    | .error e => (texts opened epoch time start.log, some e)
    | .ok p => (texts opened epoch time (start.log ++ firstAttempt p host), none)

end Startup

end Onboard
