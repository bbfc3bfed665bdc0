/-!
Multicast groups of the fields. Each channel keeps one field's robots apart from the others.
-/

namespace Onboard.Channel

def groups : List String :=
  ["ff02::c3d0:42d2:bb01", "ff02::c3d0:42d2:bb02", "ff02::c3d0:42d2:bb03", "ff02::c3d0:42d2:bb04"]

def group? (channel : Nat) : Option String :=
  groups[channel]?

def unknownMessage (channel : Nat) : String :=
  s!"No multicast group for channel {channel}"

end Onboard.Channel
