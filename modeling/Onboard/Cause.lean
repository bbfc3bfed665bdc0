/-!
Causes of failure.
-/

namespace Onboard

/-- A cause has a name, by which programs tell it from others, and a message for people. -/
class Cause (ε : Type) where
  name : ε → String
  message : ε → String

end Onboard
