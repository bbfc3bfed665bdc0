import Onboard.Time

/-!
Cells through which two threads hand values to each other. The last value published is the one that is read; nothing
waits.
-/

namespace Onboard

structure Handoff (α : Type) where
  value : α

namespace Handoff

variable {α : Type}

def publish (_ : Handoff α) (value : α) : Handoff α := ⟨value⟩

def load (h : Handoff α) : α := h.value

@[simp] theorem load_publish (h : Handoff α) (value : α) : (h.publish value).load = value := rfl

end Handoff

/-- Commands one way and stamped statuses the other; a status that was never published has no stamp. -/
structure CommandChannel (κ σ : Type) where
  command : Handoff κ
  status : Handoff (σ × Option Instant)

namespace CommandChannel

variable {κ σ : Type}

def new (command : κ) (status : σ) : CommandChannel κ σ :=
  ⟨⟨command⟩, ⟨(status, none)⟩⟩

def publishCommand (c : CommandChannel κ σ) (command : κ) : CommandChannel κ σ :=
  { c with command := c.command.publish command }

def publishStatus (c : CommandChannel κ σ) (status : σ) (now : Instant) : CommandChannel κ σ :=
  { c with status := c.status.publish (status, some now) }

def latestCommand (c : CommandChannel κ σ) : κ := c.command.load

def latestStatus (c : CommandChannel κ σ) : σ := c.status.load.1

def statusAge (c : CommandChannel κ σ) (now : Instant) : Option Duration :=
  c.status.load.2.map now.since

end CommandChannel

end Onboard
