/-!
Signals that end the robot's program.
-/

namespace Onboard

/-- The signals that are taken for a crash, in the order in which they are watched. -/
inductive FatalSignal where
  | segmentation
  | termination
  | abortion
  | arithmetic
  | interrupt
  | illegalInstruction
  deriving DecidableEq

namespace FatalSignal

def all : List FatalSignal :=
  [.segmentation, .termination, .abortion, .arithmetic, .interrupt, .illegalInstruction]

def number : FatalSignal → Int
  | .segmentation => 11
  | .termination => 15
  | .abortion => 6
  | .arithmetic => 8
  | .interrupt => 2
  | .illegalInstruction => 4

def name : FatalSignal → String
  | .segmentation => "SIGSEGV"
  | .termination => "SIGTERM"
  | .abortion => "SIGABRT"
  | .arithmetic => "SIGFPE"
  | .interrupt => "SIGINT"
  | .illegalInstruction => "SIGILL"

def ofNumber? (number : Int) : Option FatalSignal :=
  all.find? fun s => s.number = number

theorem ofNumber?_number (s : FatalSignal) : ofNumber? s.number = some s := by
  cases s <;> decide

end FatalSignal

def signalName (number : Int) : String :=
  match FatalSignal.ofNumber? number with
  | some s => s.name
  | none => "UNKNOWN"

end Onboard
