import Onboard.Loop.ControlLoop

/-!
The control loop on its network. Sets arrive at any time; each cycle begins with a poll, to which the loop hands the
status of the cycle before, so that a status is sent one cycle after it was assembled.
-/

namespace Onboard

structure NetworkedLoop where
  loop : ControlLoop
  network : NetworkService

inductive NetworkedEvent where
  /-- A listener hands a set on, at an instant and at a time in seconds since the epoch. -/
  | arrival (source : Nat) (set : PrimitiveSet) (now : Instant) (time : Float)
  /-- A cycle at a time in seconds since the epoch. The poll stands in for the status and the set of the input. -/
  | cycle (input : CycleInput) (time : Float) (send : RobotStatus → Except DatagramError Unit)

structure NetworkedCycle where
  poll : NetworkPoll
  report : CycleReport

namespace NetworkedLoop

def new (robot : RobotSettings) (settings : LoopSettings) (sources : Nat) (files : String → Option FileNode)
    (start : Instant) : Except Fault NetworkedLoop := do
  let network ← NetworkService.onSources sources settings
  let (loop, _) ← ControlLoop.new robot settings files start
  return ⟨loop, network⟩

def inputOf (input : CycleInput) (poll : NetworkPoll) : CycleInput :=
  { input with polled := poll.status, inbound := poll.inbound }

def step (n : NetworkedLoop) : NetworkedEvent → Except Fault (NetworkedLoop × Option NetworkedCycle)
  | .arrival source set now time => .ok ({ n with network := n.network.deliver source set now time }, none)
  | .cycle input time send => do
    let poll := n.network.poll n.loop.status time send
    let (loop, report) ← n.loop.cycle (inputOf input poll)
    return (⟨loop, poll.service⟩, some ⟨poll, report⟩)

def run (n : NetworkedLoop) : List NetworkedEvent → Except Fault (NetworkedLoop × List NetworkedCycle)
  | [] => .ok (n, [])
  | event :: rest => do
    let (n, cycle) ← n.step event
    let (n, cycles) ← n.run rest
    return (n, cycle.toList ++ cycles)

end NetworkedLoop

end Onboard
