import BurstRing.Pipeline.Loop
import BurstRing.Ring.Basic

/-!
# Draining a ring

A drain takes handles from a ring in bursts and hands them on in batches.  A step takes one burst
and hands everything pending on once there are as many handles as a burst may have; a flush hands
on what is pending, unless that is nothing.

The sink is a function that folds each batch into a value of its own.
-/

namespace BurstRing

/-- Handles taken from a ring and not yet handed on, and what the sink has made of the others. -/
structure Drain (τ : Type) where
  burst : Nat
  pending : Array UInt64
  /-- Handles taken so far. -/
  drained : UInt64
  sink : τ

/-- How a sink takes a batch. -/
abbrev Sink (τ : Type) := Array UInt64 → τ → τ

namespace Drain

variable {τ : Type}

/-- A drain for a ring of handles; a burst has at least one. -/
def create (ring : Ring) (burst : Nat) (sink : τ) : Except RingError (Drain τ) :=
  if ring.elementSize ≠ handleSize then
    .error (.elementSizeMismatch ring.elementSize handleSize)
  else .ok ⟨max burst 1, #[], 0, sink⟩

/-- Hands on what is pending, unless that is nothing. -/
def flush (accept : Sink τ) (d : Drain τ) : Drain τ :=
  if d.pending.isEmpty then d
  else { d with pending := #[], sink := accept d.pending d.sink }

/-- Files `handles` as taken, and hands everything on once there is enough. -/
def gather (accept : Sink τ) (handles : Array UInt64) (d : Drain τ) : Drain τ :=
  let d := { d with
    pending := d.pending ++ handles, drained := d.drained + handles.size.toUInt64 }
  if d.burst ≤ d.pending.size then d.flush accept else d

/-- Takes one burst from `ring`. -/
def step (accept : Sink τ) (ring : Ring) (d : Drain τ) : Ring × Drain τ :=
  match ring.dequeue (Array.replicate d.burst 0) .burst with
  | (.ok n, out, ring) => (ring, if n = 0 then d else d.gather accept (out.extract 0 n))
  | (.error _, _, ring) => (ring, d)

end Drain

/-- A ring and the drain on it. -/
structure DrainedRing (τ : Type) where
  ring : Ring
  drain : Drain τ

namespace DrainedRing

variable {τ : Type}

def runStep (accept : Sink τ) (x : DrainedRing τ) : DrainedRing τ :=
  let (ring, drain) := x.drain.step accept x.ring
  ⟨ring, drain⟩

def flush (accept : Sink τ) (x : DrainedRing τ) : DrainedRing τ :=
  { x with drain := x.drain.flush accept }

end DrainedRing

/-- The sink that keeps every batch, in order. -/
def keepBatches : Sink (Array (Array UInt64)) := fun batch kept => kept.push batch

/-- The sink that only counts handles. -/
def countHandles : Sink UInt64 := fun batch n => n + batch.size.toUInt64

end BurstRing
