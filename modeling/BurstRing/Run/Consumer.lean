import BurstRing.Pipeline.Drain
import BurstRing.Config.Basic

/-!
# The consumer of a run

The consumer drains the ring under a drive loop and counts what it delivers.  The loop's control
callback and its stop flag are one switch.  When the loop has ended well, what is still pending is
handed on.
-/

namespace BurstRing

/-- A consumer: its drain, whose sink counts the handles delivered, and where its loop stands. -/
structure Consumer where
  interval : FlushInterval
  drain : Drain UInt64
  loop : LoopState ⊕ LoopEnd

namespace Consumer

/-- A consumer on `ring` that has not begun. -/
def create (pipeline : PipelineConfig) (ring : Ring) : Except RingError Consumer := do
  let drain ← Drain.create ring pipeline.burstSize.toNat 0
  .ok ⟨pipeline.flushInterval, drain, .inl .initial⟩

/-- Handles delivered so far. -/
def delivered (c : Consumer) : UInt64 := c.drain.sink

def isOver (c : Consumer) : Bool := c.loop.isRight

/-- The engine of the consumer's loop while the switch stands at `stop`. -/
def engine (stop : StopSwitch) : Engine (DrainedRing UInt64) where
  runStep := DrainedRing.runStep countHandles
  flush := DrainedRing.flush countHandles
  control x := (stop.control, x)
  stopRequested _ := stop.raised

/-- One move of the consumer while the switch stands at `stop`. -/
def advance (stop : StopSwitch) (ring : Ring) (c : Consumer) : Ring × Consumer :=
  match c.loop with
  | .inr _ => (ring, c)
  | .inl s =>
    match (engine stop).advance c.interval s ⟨ring, c.drain⟩ with
    | (.inr (.ok report), ⟨ring, drain⟩) =>
      (ring, { c with drain := drain.flush countHandles, loop := .inr (.ok report) })
    | (loop, ⟨ring, drain⟩) => (ring, { c with drain, loop })

/-- Moves on by itself until it is over, or `fuel` moves are made. -/
def finish (stop : StopSwitch) : (fuel : Nat) → Ring → Consumer → Ring × Consumer
  | 0, ring, c => (ring, c)
  | fuel + 1, ring, c =>
    if c.isOver then (ring, c)
    else
      let (ring, c) := c.advance stop ring
      finish stop fuel ring c

end Consumer

end BurstRing
