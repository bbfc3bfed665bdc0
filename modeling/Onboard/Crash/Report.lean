import Onboard.Cause
import Onboard.Crash.Signal
import Onboard.Robot.Status
import Onboard.Text.Quoted

/-!
What a robot does when a fatal signal ends it: every peripheral is made safe, a banner tells who did it, and the last
status goes out in a report. `Crash.handle` gives these deeds in their order and the code with which the program ends.
-/

namespace Onboard

/-- A report names the signal and carries the last status. -/
def CrashReport.of (robotId : UInt32) (signal : Int) (stackDump : String) (status : RobotStatus) : CrashReport :=
  ⟨robotId, stackDump, signalName signal, status⟩

/-- What the handler needs, gathered before anything goes wrong. -/
structure CrashContext where
  robotId : UInt32
  peripherals : List String
  lastStatus : RobotStatus

inductive CrashError where
  | alreadyInstalled
  deriving DecidableEq

def CrashError.message : CrashError → String
  | .alreadyInstalled => "The crash context has already been installed"

instance : Cause CrashError where
  name
    | .alreadyInstalled => "AlreadyInstalled"
  message := CrashError.message

/-- One context serves for the whole life of the program. -/
def CrashContext.install (installed : Option CrashContext) (context : CrashContext) :
    Except CrashError CrashContext :=
  match installed with
  | none => .ok context
  | some _ => .error .alreadyInstalled

def CrashContext.attempts (installed : Option CrashContext) (context : CrashContext) :
    Nat → List (Except CrashError CrashContext)
  | 0 => []
  | n + 1 =>
    let answer := context.install installed
    answer :: attempts (answer.toOption.or installed) context n

inductive CrashStep where
  | makeSafe (peripheral : String)
  | banner (line : String)
  | send (report : CrashReport)
  deriving DecidableEq

namespace CrashStep

/-- The peripheral that a deed makes safe. -/
def safed? : CrashStep → Option String
  | .makeSafe peripheral => some peripheral
  | _ => none

def line? : CrashStep → Option String
  | .banner line => some line
  | _ => none

end CrashStep

namespace Crash

def bannerFor (robotId : UInt32) (signal : Int) : String :=
  s!"=========== ROBOT {robotId} CRASHED (" ++ signalName signal ++ ") ==========="

def safedLine (peripheral : String) : String :=
  "    " ++ peripheral ++ " made safe"

/-- All peripherals are made safe before anything is said or sent. -/
def report (c : CrashContext) (signal : Int) (stackDump : String) : List CrashStep :=
  c.peripherals.map .makeSafe
    ++ .banner (bannerFor c.robotId signal) :: c.peripherals.map (fun p => .banner (safedLine p))
    ++ [.send (.of c.robotId signal stackDump c.lastStatus)]

inductive Ending where
  | code (code : Int)
  | signal (number : Int)
  | goesOn
  deriving DecidableEq

/-- The deeds upon a watched signal, and the ending; without a context the program only ends. -/
def handle (context : Option CrashContext) (signal : FatalSignal) (stackDump : String) : List CrashStep × Ending :=
  ((context.map fun c => report c signal.number stackDump).getD [], .code (128 + signal.number))

/-- Signals that are ignored, by the system or by the program, which prefers to see a failed write. -/
def ignoredSignals : List Int := [7, 13, 17, 18, 23, 28]

/-- Signals that halt a program until it is told to go on. -/
def haltingSignals : List Int := [19, 20, 21, 22]

/-- Signals that the thread library keeps to itself. -/
def reservedSignals : List Int := [32, 33]

def isDeadly (signal : Int) : Bool :=
  1 ≤ signal && signal ≤ 64 && !(ignoredSignals ++ haltingSignals ++ reservedSignals).contains signal

/-- What any signal does: watched ones are handled, others act as the system has it. -/
def raised (context : Option CrashContext) (signal : Int) (stackDump : String) : List CrashStep × Ending :=
  match FatalSignal.ofNumber? signal with
  | some s => handle context s stackDump
  | none => ([], if isDeadly signal then .signal signal else .goesOn)

def abortedEnding : Ending := .signal FatalSignal.abortion.number

/-- What a program says when it gives up: a message of its own choice, and a value if there is one. -/
def explicitMessage (message value : Option String) : String :=
  match message, value with
  | none, _ => "Explicit error raised."
  | some message, none => message
  | some message, some value => message ++ ": " ++ Text.quoted value

end Crash

end Onboard
