import BurstRing.Ring.Storage

/-!
# Transfers, one atomic step at a time

A transfer loads the head of its side, loads the tail across, exchanges (or stores) its head,
copies its elements one by one, and publishes.  `Call` is a transfer somewhere on that way and
`Call.step` its next atomic step on the shared `RingState`; any number of calls on one ring may
take their steps in any order.  A claim whose length runs over breaks the call before its first
copy, if the build checks for that.

`Call.runAlone` lets one call take all its steps, which is what happens when nobody interferes.
-/

namespace BurstRing

/-- What the callers of one ring share. -/
structure RingState where
  producer : Cursors
  consumer : Cursors
  storage : Storage
  deriving Repr

namespace RingState

/-- No elements, and all four cursors at `s`. -/
def startingAt (s : UInt64) : RingState := ⟨.startingAt s, .startingAt s, .blank⟩

def cursors (s : RingState) : Side → Cursors
  | .producer => s.producer
  | .consumer => s.consumer

def setCursors (s : RingState) : Side → Cursors → RingState
  | .producer, c => { s with producer := c }
  | .consumer, c => { s with consumer := c }

/-- Published elements not yet released, when the consumer's tail is loaded first. -/
def count (shape : Shape) (consumerTail producerTail : UInt64) : Nat :=
  min (producerTail - consumerTail).toNat shape.capacity

end RingState

/-- How a call drives its side. -/
inductive Access where
  /-- Beside other callers, in this mode. -/
  | shared (mode : SyncMode)
  /-- As the only caller of the side. -/
  | owned
  deriving DecidableEq, Repr

/-- How far a call has come. -/
inductive Phase where
  | loadHead
  | loadOpposing (start : UInt64)
  | exchange (claim : Claim)
  | copy (claim : Claim) (copied : Nat)
  | publish (claim : Claim)
  /-- The tail stood at the start of the claim; it is about to be moved. -/
  | moveTail (claim : Claim)
  | done (claim : Option Claim)
  /-- The program broke off; the claim stays reserved. -/
  | broken (panic : Panic) (claim : Option Claim)
  deriving DecidableEq, Repr

/-- A transfer on its way.  `buffer` holds the elements to store, or takes the elements fetched. -/
structure Call where
  side : Side
  behavior : Behavior
  access : Access
  wanted : UInt64
  buffer : Array UInt8
  phase : Phase
  deriving Repr

namespace Call

/-- A transfer that has not begun. -/
def begin (side : Side) (behavior : Behavior) (access : Access) (wanted : UInt64)
    (buffer : Array UInt8) : Call :=
  ⟨side, behavior, access, wanted, buffer, .loadHead⟩

/-- Positions a side may claim from `head` on, given the tail across: free slots for a producer,
published elements for a consumer. -/
def available (shape : Shape) (side : Side) (head opposingTail : UInt64) : UInt64 :=
  match side with
  | .producer => shape.capacity.toUInt64 - (head - opposingTail)
  | .consumer => opposingTail - head

/-- The largest reading that makes sense; the only caller of a side does not check. -/
def limit (shape : Shape) : Access → Option UInt64
  | .shared _ => some shape.capacity.toUInt64
  | .owned => none

/-- What follows a reading of the tail across. -/
def decide (shape : Shape) (c : Call) (start opposingTail : UInt64) : Phase :=
  match judge (limit shape c.access) c.wanted c.behavior start
      (available shape c.side start opposingTail) with
  | .reread => .loadHead
  | .nothing => .done none
  | .reserve claim => .exchange claim

/-- Moves the head, or finds that it has moved. -/
def reserve (c : Call) (claim : Claim) (s : Cursors) : Phase × Cursors :=
  match c.access with
  | .owned => (.copy claim 0, s.reserve claim)
  | .shared mode =>
    match s.exchange mode claim with
    | (.granted, s) => (.copy claim 0, s)
    | (.lost, s) => (.loadHead, s)
    | (.misuse, s) => (.broken .concurrentClaim none, s)

/-- Tests the tail, and moves it at once where that is one step. -/
def settle (c : Call) (claim : Claim) (s : Cursors) : Phase × Cursors :=
  match c.access with
  | .owned => (.done (some claim), s.release claim)
  | .shared .single =>
    match s.publish .single claim with
    | (.published, s) => (.done (some claim), s)
    | (_, s) => (.broken .concurrentPublication (some claim), s)
  | .shared .multi =>
    if s.tail = claim.start then (.moveTail claim, s) else (.publish claim, s)

/-- The next atomic step. -/
def step (shape : Shape) : RingState → Call → RingState × Call
  | s, c =>
    match c.phase with
    | .loadHead => (s, { c with phase := .loadOpposing (s.cursors c.side).head })
    | .loadOpposing start =>
      (s, { c with phase := c.decide shape start (s.cursors c.side.opposite).tail })
    | .exchange claim =>
      let (phase, cursors) := c.reserve claim (s.cursors c.side)
      (s.setCursors c.side cursors, { c with phase })
    | .copy claim copied =>
      match claim.length shape.overflow with
      | .error panic => (s, { c with phase := .broken panic (some claim) })
      | .ok n =>
        if copied < n.toNat then
          match c.side with
          | .producer =>
            ({ s with storage := s.storage.putElement shape claim c.buffer copied },
              { c with phase := .copy claim (copied + 1) })
          | .consumer =>
            (s, { c with buffer := s.storage.getElement shape claim c.buffer copied,
                         phase := .copy claim (copied + 1) })
        else (s, { c with phase := .publish claim })
    | .publish claim =>
      let (phase, cursors) := c.settle claim (s.cursors c.side)
      (s.setCursors c.side cursors, { c with phase })
    | .moveTail claim =>
      (s.setCursors c.side ((s.cursors c.side).release claim),
        { c with phase := .done (some claim) })
    | .done _ | .broken _ _ => (s, c)

/-- An exchange beside any number of callers may fail although the head has not moved. -/
def spoil (c : Call) : Call :=
  match c.phase, c.access with
  | .exchange _, .shared .multi => { c with phase := .loadHead }
  | _, _ => c

/-- No step is left. -/
def isOver (c : Call) : Bool :=
  match c.phase with
  | .done _ | .broken _ _ => true
  | _ => false

/-- The range the call holds or held. -/
def claim? (c : Call) : Option Claim :=
  match c.phase with
  | .copy claim _ | .publish claim | .moveTail claim => some claim
  | .done claim | .broken _ claim => claim
  | _ => none

/-- Elements moved by a finished call. -/
def moved (c : Call) : Nat :=
  match c.phase with
  | .done (some claim) => claim.len.toNat
  | _ => 0

/-- All steps of one call, with nobody else at work. -/
def runAlone (shape : Shape) : (fuel : Nat) → RingState → Call → RingState × Call
  | 0, s, c => (s, c)
  | fuel + 1, s, c =>
    if c.isOver then (s, c)
    else
      let (s, c) := c.step shape s
      runAlone shape fuel s c

/-- Steps that suffice for a call that nobody interferes with: three to claim, one for each
element, and three to publish. -/
def steps (c : Call) : Nat := c.wanted.toNat + 6

end Call

end BurstRing
