import BurstRing.Name
import BurstRing.Ring.Basic
import BurstRing.Stress.Plan

/-!
# Stress checks

The producers and the consumer of a stress check share one ring, and each of their moves does one
burst on it.  A producer whose burst fell short goes on with the first handle that was not
accepted.  The consumer marks the place of every tag it sees, and stops when it has seen as many as
were sent, when a tag is no tag of the plan or has been seen before, or when the ring has been
empty for so long that it gives up.

A list of moves is a schedule; `StressCheck.run` has one of its own, in which all move in turn.
-/

namespace BurstRing

/-- Most handles of a producer's burst. -/
def stressBatch : Nat := 32

/-- Most handles of the consumer's burst. -/
def stressBurst : Nat := 64

/-- Where the consumer stands. -/
inductive ObserverPhase where
  /-- Still counting; `idle` if the last burst brought nothing. -/
  | counting (idle : Bool)
  /-- As many handles have arrived as were sent. -/
  | complete
  | gaveUp
  | failed (cause : StressError)
  deriving DecidableEq, Repr

/-- A stress check on its way. -/
structure StressCheck where
  plan : StressPlan
  ring : Ring
  /-- Handles that each producer has sent. -/
  sent : Array Nat
  /-- Which places have been seen. -/
  seen : Array Bool
  received : Nat
  phase : ObserverPhase
  /-- A transfer found another caller on a side for one. -/
  broken : Bool

/-- One move in a schedule. -/
inductive StressMove where
  | produce (producer : Nat)
  | consume
  /-- The consumer has waited long enough. -/
  | giveUp
  deriving DecidableEq, Repr

/-- Why there is no ring for a check. -/
inductive StressFault where
  | refused (cause : RingError)
  /-- The program broke off over the number of its slots. -/
  | panicked (panic : Panic)
  deriving DecidableEq, Repr

/-- What a check that passed was about. -/
structure StressReport where
  producers : Nat
  handles : Nat
  capacity : Nat
  deriving DecidableEq, Repr

namespace StressPlan

/-- The next handles of `producer`, from its handle number `sequence` on. -/
def batch (p : StressPlan) (producer sequence : Nat) : Array UInt64 :=
  (Array.range (min stressBatch (p.perProducer - sequence))).map fun i =>
    Tag.ofPair producer.toUInt64 (sequence + i).toUInt64

/-- Marks the place of `tag`. -/
def mark (p : StressPlan) (seen : Array Bool) (tag : UInt64) : Except StressError (Array Bool) :=
  let producer := (Tag.producer tag).toNat
  let sequence := (Tag.sequence tag).toNat
  if p.producers ≤ producer ∨ p.perProducer ≤ sequence then .error (.unknownTag tag)
  else if seen.getD (p.place producer sequence) false then .error (.duplicate producer sequence)
  else .ok (seen.setIfInBounds (p.place producer sequence) true)

/-- The name of the ring between the producers and the consumer. -/
def ringName : RingName := ⟨"stress", by decide⟩

/-- An empty ring for the check. -/
def ring (overflow : Overflow) (memory : Memory) (p : StressPlan) : Except StressFault Ring := do
  let capacity ← (p.capacity overflow).mapError .panicked
  (Ring.withHandles memory ringName capacity .multi .single).mapError .refused

end StressPlan

namespace StressCheck

/-- A check on `ring` that has not begun. -/
def start (plan : StressPlan) (ring : Ring) : StressCheck :=
  ⟨plan, ring, Array.replicate plan.producers 0, Array.replicate plan.total false, 0,
    .counting false, false⟩

/-! ### Moves -/

/-- One burst of a producer that has handles left. -/
def produce (producer : Nat) : StressCheck → StressCheck
  | ⟨plan, ring, sent, seen, received, phase, broken⟩ =>
    match sent[producer]? with
    | none => ⟨plan, ring, sent, seen, received, phase, broken⟩
    | some sequence =>
      if sequence < plan.perProducer then
        match ring.enqueue (plan.batch producer sequence) .burst with
        | (.ok n, ring) =>
          ⟨plan, ring, sent.setIfInBounds producer (sequence + n), seen, received, phase, broken⟩
        | (.error (.refused _), ring) =>
          ⟨plan, ring, sent, seen, received, phase, broken⟩
        | (.error _, ring) => ⟨plan, ring, sent, seen, received, phase, true⟩
      else ⟨plan, ring, sent, seen, received, phase, broken⟩

/-- Marks the handles of a burst.  After a failure the marks are of no more use. -/
def observe (tags : Array UInt64) : StressCheck → StressCheck
  | ⟨plan, ring, sent, seen, received, _, broken⟩ =>
    match tags.foldlM plan.mark seen with
    | .error cause => ⟨plan, ring, sent, #[], received, .failed cause, broken⟩
    | .ok seen =>
      let received := received + tags.size
      let phase := if received < plan.total then .counting tags.isEmpty else .complete
      ⟨plan, ring, sent, seen, received, phase, broken⟩

/-- One burst of the consumer, while it counts. -/
def consume : StressCheck → StressCheck
  | ⟨plan, ring, sent, seen, received, .counting idle, broken⟩ =>
    match ring.dequeue (Array.replicate stressBurst 0) .burst with
    | (.ok n, out, ring) =>
      observe (out.extract 0 n) ⟨plan, ring, sent, seen, received, .counting idle, broken⟩
    | (.error (.refused _), _, ring) =>
      ⟨plan, ring, sent, seen, received, .counting true, broken⟩
    | (.error _, _, ring) => ⟨plan, ring, sent, seen, received, .gaveUp, true⟩
  | c => c

/-- Gives up if the last burst brought nothing. -/
def giveUp (c : StressCheck) : StressCheck :=
  match c.phase with
  | .counting true => { c with phase := .gaveUp }
  | _ => c

/-- Makes one move. -/
def act : StressMove → StressCheck → StressCheck
  | .produce producer, c => c.produce producer
  | .consume, c => c.consume
  | .giveUp, c => c.giveUp

/-- Follows a schedule. -/
def follow (schedule : List StressMove) (c : StressCheck) : StressCheck :=
  schedule.foldl (fun c m => c.act m) c

/-! ### The end -/

/-- Every producer has sent all its handles. -/
def allSent (c : StressCheck) : Bool := c.sent.all (c.plan.perProducer ≤ ·)

/-- The consumer goes on. -/
def isCounting (c : StressCheck) : Bool :=
  match c.phase with
  | .counting _ => true
  | _ => false

/-- Nobody moves any more. -/
def isOver (c : StressCheck) : Bool := c.broken || (c.allSent && !c.isCounting)

/-- What the check found. -/
def verdict (c : StressCheck) : Except StressError StressReport :=
  if c.broken then .error .workerBroken
  else
    match c.phase with
    | .failed cause => .error cause
    | _ =>
      if c.received ≠ c.plan.total ∨ c.ring.isEmpty = false then
        .error (.lost c.plan.total c.received)
      else .ok ⟨c.plan.producers, c.plan.total, c.ring.capacity⟩

/-- Moves everybody in turn: the producers in order, then the consumer. -/
def round (c : StressCheck) : StressCheck :=
  ((List.range c.plan.producers).foldl (fun c p => c.produce p) c).consume

/-- Rounds until nobody moves any more, but `fuel` at most. -/
def run : (fuel : Nat) → StressCheck → StressCheck
  | 0, c => c
  | fuel + 1, c => if c.isOver then c else run fuel c.round

/-- Rounds that suffice: in each of them the consumer takes a handle, as long as there is one. -/
def rounds (c : StressCheck) : Nat := c.plan.total + 1

end StressCheck

end BurstRing
