import BurstRing.Ring.Basic

/-!
# Endpoints

A ring whose sides are both for one caller can be split into a producer and a consumer.  Each of
them is the only caller of its side from then on, so its transfers store the cursors without a
compare-exchange and without waiting.
-/

namespace BurstRing

/-- The two ends of a split ring, with the ring between them. -/
structure Endpoints where
  ring : Ring
  producer_single : ring.producerMode = .single
  consumer_single : ring.consumerMode = .single

/-- Splits a ring both of whose sides are for one caller; the producer side is looked at first. -/
def Ring.split (r : Ring) : Except RingError Endpoints :=
  if hp : r.producerMode = .single then
    if hc : r.consumerMode = .single then .ok ⟨r, hp, hc⟩
    else .error (.notSplittable r.name.text .consumer)
  else .error (.notSplittable r.name.text .producer)

theorem Ring.perform_modes (r : Ring) (side : Side) (behavior : Behavior) (access : Access)
    (wanted : Nat) (buffer : Array UInt8) :
    (r.perform side behavior access wanted buffer).2.2.producerMode = r.producerMode ∧
      (r.perform side behavior access wanted buffer).2.2.consumerMode = r.consumerMode := by
  unfold Ring.perform
  split
  dsimp only
  split <;> exact ⟨rfl, rfl⟩

namespace Endpoints

/-- The endpoints of what a transfer leaves. -/
def after (e : Endpoints) (side : Side) (behavior : Behavior) (wanted : Nat)
    (buffer : Array UInt8) : Except TransferFault Nat × Array UInt8 × Endpoints :=
  match h : e.ring.perform side behavior .owned wanted buffer with
  | (outcome, buffer', ring) =>
    have modes := Ring.perform_modes e.ring side behavior .owned wanted buffer
    (outcome, buffer',
      ⟨ring, by rw [h] at modes; exact modes.1.trans e.producer_single,
        by rw [h] at modes; exact modes.2.trans e.consumer_single⟩)

/-- The producer stores `handles`. -/
def enqueue (e : Endpoints) (handles : Array UInt64) (behavior : Behavior) :
    Except TransferFault Nat × Endpoints :=
  match Ring.checkHandles e.ring.shape handles.size with
  | .error cause => (.error (.refused cause), e)
  | .ok () =>
    let (outcome, _, e) := e.after .producer behavior handles.size (Handle.pack handles)
    (outcome, e)

/-- The consumer fetches handles into `out`. -/
def dequeue (e : Endpoints) (out : Array UInt64) (behavior : Behavior) :
    Except TransferFault Nat × Array UInt64 × Endpoints :=
  match Ring.checkHandles e.ring.shape out.size with
  | .error cause => (.error (.refused cause), out, e)
  | .ok () =>
    let n := out.size
    let (outcome, buffer, e) := e.after .consumer behavior n (Handle.pack out)
    (outcome, Handle.unpack buffer n, e)

/-- The producer stores records from `objects`. -/
def enqueueElements (e : Endpoints) (objects : Array UInt8) (elementSize : Nat)
    (behavior : Behavior) : Except TransferFault Nat × Endpoints :=
  match Ring.checkElements e.ring.shape objects.size elementSize with
  | .error cause => (.error (.refused cause), e)
  | .ok n =>
    let (outcome, _, e) := e.after .producer behavior n objects
    (outcome, e)

/-- The consumer fetches records into `out`. -/
def dequeueElements (e : Endpoints) (out : Array UInt8) (elementSize : Nat)
    (behavior : Behavior) : Except TransferFault Nat × Array UInt8 × Endpoints :=
  match Ring.checkElements e.ring.shape out.size elementSize with
  | .error cause => (.error (.refused cause), out, e)
  | .ok n => e.after .consumer behavior n out

/-- The producer stores one handle; false if the ring is full. -/
def enqueueOne (e : Endpoints) (handle : UInt64) : Except TransferFault Bool × Endpoints :=
  let (outcome, e) := e.enqueue #[handle] .exactly
  (outcome.map (· == 1), e)

/-- The consumer fetches one handle, if there is one. -/
def dequeueOne (e : Endpoints) : Except TransferFault (Option UInt64) × Endpoints :=
  let (outcome, out, e) := e.dequeue #[0] .exactly
  (outcome.map fun n => if n = 1 then out[0]? else none, e)

/-- Free slots, as the producer sees them. -/
def freeCount (e : Endpoints) : Nat := e.ring.freeCount

/-- Elements, as the consumer sees them. -/
def count (e : Endpoints) : Nat := e.ring.count

def info (e : Endpoints) : RingInfo := e.ring.info

end Endpoints

end BurstRing
