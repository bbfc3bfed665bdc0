/-!
Lines for the log. The parts of the robot's software answer with the lines they have to say; where they go is decided
by whoever runs them.
-/

namespace Onboard

/-- Severities, the gravest first. -/
inductive Level where
  | error
  | warn
  | info
  | debug
  | trace
  deriving DecidableEq

namespace Level

def all : List Level := [.error, .warn, .info, .debug, .trace]

/-- Larger for what is less grave. -/
def verbosity : Level → Nat
  | .error => 1
  | .warn => 2
  | .info => 3
  | .debug => 4
  | .trace => 5

def capitals : Level → String
  | .error => "ERROR"
  | .warn => "WARN"
  | .info => "INFO"
  | .debug => "DEBUG"
  | .trace => "TRACE"

def name : Level → String
  | .error => "Error"
  | .warn => "Warn"
  | .info => "Info"
  | .debug => "Debug"
  | .trace => "Trace"

end Level

structure LogLine where
  level : Level
  message : String
  deriving DecidableEq

def LogLine.warn (message : String) : LogLine := ⟨.warn, message⟩

def LogLine.info (message : String) : LogLine := ⟨.info, message⟩

end Onboard
