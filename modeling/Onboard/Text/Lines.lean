/-!
Lines as a reader of a log sees them.
-/

namespace Onboard.Text

/-- The lines of texts printed one after the other, each with a line feed after it. A carriage return right before a
line feed belongs to the end of the line. -/
def printedLines (texts : List String) : List String :=
  (((String.join (texts.map (· ++ "\n"))).replace "\r\n" "\n").splitOn "\n").dropLast

end Onboard.Text
