import Onboard.Startup
import Onboard.Tools.PrimitivePublisher
import Onboard.Tools.StatusWatch
import Std.Time

/-!
The command line. Without arguments the robot's program starts; `publish` and `watch` start the tools with the
arguments that follow. Each start goes as far as the first socket that it would need.
-/

namespace Onboard.CommandLine

def failureOf : IO.Error → IoFailure
  | .noFileOrDirectory .. => .notFound
  | .alreadyExists .. => .alreadyExists
  | .inappropriateType .. => .notADirectory
  | e => .other (toString e)

def attempt {α : Type} (action : IO α) : IO (Except IoFailure α) := do
  try return .ok (← action)
  catch e => return .error (failureOf e)

def readText (path : String) : IO (Except IoFailure String) := do
  match ← attempt (IO.FS.readBinFile path) with
  | .ok contents =>
    match Utf8.decode? contents.toList with
    | some text => return .ok text
    | none => return .error .invalidUtf8
  | .error e => return .error e

def interfaceIndex (name : String) : IO (Option UInt32) := do
  match ← readText ("/sys/class/net/" ++ name ++ "/ifindex") with
  | .ok text => return text.trimAscii.toNat?.map UInt32.ofNat
  | .error _ => return none

/-- The computer as far as it is known without sockets, with the number of one interface. -/
def hostWith (name : String) : IO NetworkHost := do
  let index ← interfaceIndex name
  return { NetworkHost.isolated with interfaceIndex := fun n => if n = name then index else none }

def readSettings (root : String) : IO (String → Except IoFailure String) := do
  let files ← Startup.groups.mapM fun group => do
    let path := Path.join (Path.join root "params") (group ++ ".toml")
    return (path, ← readText path)
  return fun path => (files.lookup path).getD (.error .notFound)

def printFailure (e : StartupError) : IO UInt32 := do
  IO.eprintln "Error: "
  for line in e.chain do
    IO.eprintln ("   " ++ line)
  return 1

def timeTexts : IO (String × String) := do
  let now := Std.Time.PlainDateTime.ofWallTime ((← Std.Time.Timestamp.now).toWallTime .zero)
  return (now.format "uuuuMMdd_HHmmss", now.format "uuuu-MM-dd HH:mm:ss.nnnnnnnnn" ++ " UTC")

def startIn (root : String) : IO UInt32 := do
  let (stamp, epoch) ← timeTexts
  let session := Session.places (Path.join root Startup.sessionsDirectory) Startup.program stamp
  match ← attempt (IO.FS.createDirAll session.auditRoot) with
  | .error cause => printFailure (.session (.directory session.auditRoot cause))
  | .ok () =>
    let start := Startup.run session (some root) (← readSettings root)
    let more ← match start.outcome with
      | .ok p => do
        let host ← hostWith p.robot.networkInterface
        pure (Startup.firstAttempt p host)
      | .error _ => pure []
    let texts := Startup.texts ⟨session, ⟨Startup.filter, false⟩⟩ epoch (Logger.timeText (some 0.0)) (start.log ++ more)
    let text := String.join (texts.map fun line => line ++ "\n")
    IO.print text
    match ← attempt (IO.FS.writeFile session.logPath text), start.outcome with
    | .error cause, _ => printFailure (.logging (.file cause))
    | .ok (), .error e => printFailure e
    | .ok (), .ok _ => return 0

def startRobot : IO UInt32 := do
  match ← IO.getEnv LoadError.rootVariable with
  | some root => startIn root
  | none => printFailure (.session .rootNotSet)

def finish (e : ToolEnding) : IO UInt32 := do
  if e.line ≠ "" then IO.eprintln e.line
  return UInt32.ofNat e.code

def namedInterface (specs : List OptionSpec) (option : OptionSpec) (arguments : List String) : String :=
  match ToolEnding.options specs arguments with
  | .ok given => (Arguments.value? given option).getD ""
  | .error _ => ""

def publish (arguments : List String) : IO UInt32 := do
  let name := namedInterface PrimitivePublisher.options PrimitivePublisher.interfaceOption arguments
  match PrimitivePublisher.start (← hostWith name) arguments with
  | .error e => finish e
  | .ok (_, .group sender) => do
    IO.println ("Sending to " ++ sender.destination.toText)
    return 0
  | .ok (_, .localSocket _) => return 0

def watch (arguments : List String) : IO UInt32 := do
  let name := namedInterface StatusWatch.options StatusWatch.interfaceOption arguments
  match StatusWatch.start (← hostWith name) arguments with
  | .error e => finish e
  | .ok (_, line) => do
    IO.println line
    return 0

end Onboard.CommandLine

def main (arguments : List String) : IO UInt32 :=
  match arguments with
  | "publish" :: rest => Onboard.CommandLine.publish rest
  | "watch" :: rest => Onboard.CommandLine.watch rest
  | _ => Onboard.CommandLine.startRobot
