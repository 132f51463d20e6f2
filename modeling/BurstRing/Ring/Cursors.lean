import BurstRing.Overflow
import BurstRing.Policy

/-!
# Claims and cursors

Each side of a ring has two cursors that only move forward: `head` is where the next claim starts,
`tail` is how far claims have been published.  Cursors are 64-bit words that wrap, and every
distance between them is a difference modulo `2 ^ 64`.  Only the length of a claim is a plain
difference, so a claim that reaches `2 ^ 64` has a length in some builds and none in others.

A caller reserves a range by moving `head` over it, fills or empties its slots, and publishes it
by moving `tail` over it.  Here are the single moves; which caller makes which move when is the
business of `Call`, and of the scripted claims of `Reading`.
-/

namespace BurstRing

/-- A reserved range of positions, from `start` up to `stop`. -/
structure Claim where
  start : UInt64
  stop : UInt64
  deriving DecidableEq, Repr

/-- Positions in the range, also if it runs over `2 ^ 64`. -/
def Claim.len (c : Claim) : UInt64 := c.stop - c.start

/-- The length of the range, as a build computes it. -/
def Claim.length (overflow : Overflow) (c : Claim) : Except Panic UInt64 :=
  overflow.sub c.stop c.start

/-- Positions to take of `available` ones for a request of `wanted`. -/
def take (wanted : UInt64) (behavior : Behavior) (available : UInt64) : UInt64 :=
  match behavior with
  | .exactly => if available < wanted then 0 else wanted
  | .atMost => min wanted available

/-- What a caller makes of one reading of how much is available. -/
inductive Verdict where
  /-- More than there can be: the head has moved on since it was loaded. -/
  | reread
  /-- Nothing to take. -/
  | nothing
  /-- Try to take this range. -/
  | reserve (claim : Claim)
  deriving DecidableEq, Repr

/-- Judges a reading taken against the head `start`; without a limit no reading is too large. -/
def judge (limit : Option UInt64) (wanted : UInt64) (behavior : Behavior)
    (start available : UInt64) : Verdict :=
  if limit.any (· < available) then .reread
  else
    let n := take wanted behavior available
    if n = 0 then .nothing else .reserve ⟨start, start + n⟩

/-- The two cursors of one side. -/
structure Cursors where
  head : UInt64
  tail : UInt64
  deriving DecidableEq, Repr

/-- How a compare-exchange of the head went. -/
inductive Attempt where
  | granted
  /-- Another caller moved the head first; try again. -/
  | lost
  | misuse
  deriving DecidableEq, Repr

/-- How a publication went. -/
inductive Publication where
  | published
  /-- An earlier claim has to be published first. -/
  | waiting
  | misuse
  deriving DecidableEq, Repr

namespace Cursors

/-- Both cursors at `s`. -/
def startingAt (s : UInt64) : Cursors := ⟨s, s⟩

/-- Moves the head over `claim` if it still stands at its start. -/
def exchange (mode : SyncMode) (claim : Claim) (s : Cursors) : Attempt × Cursors :=
  if s.head = claim.start then (.granted, { s with head := claim.stop })
  else
    match mode with
    | .single => (.misuse, s)
    | .multi => (.lost, s)

/-- Moves the head over `claim`, whatever it is. -/
def reserve (claim : Claim) (s : Cursors) : Cursors := { s with head := claim.stop }

/-- Moves the tail to the end of `claim`, whatever it is. -/
def release (claim : Claim) (s : Cursors) : Cursors := { s with tail := claim.stop }

/-- Publishes `claim` if every claim before it has been published. -/
def publish (mode : SyncMode) (claim : Claim) (s : Cursors) : Publication × Cursors :=
  if s.tail = claim.start then (.published, s.release claim)
  else
    match mode with
    | .single => (.misuse, s)
    | .multi => (.waiting, s)

end Cursors

end BurstRing
