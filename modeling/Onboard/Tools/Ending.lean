import Onboard.Tools.Arguments

/-!
How the tools end when they do not run.
-/

namespace Onboard

/-- The code with which a tool ends, and the line that tells why. -/
structure ToolEnding where
  code : Nat
  line : String
  deriving DecidableEq

namespace ToolEnding

def informed : ToolEnding := ⟨0, ""⟩

def ofArguments (e : ArgumentError) : ToolEnding := ⟨1, "error: " ++ e.message⟩

def failed (cause : String) : ToolEnding := ⟨1, "Error: " ++ cause⟩

def options (specs : List OptionSpec) (arguments : List String) : Except ToolEnding (List Occurrence) :=
  match Arguments.read specs arguments with
  | .ok (.run given) => .ok given
  | .ok .help | .ok .version => .error informed
  | .error e => .error (ofArguments e)

end ToolEnding

end Onboard
