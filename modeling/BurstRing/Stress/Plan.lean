import BurstRing.Ring.Shape
import BurstRing.Ring.Tag

/-!
# Plans of a stress check

In a stress check some producers send tagged handles through one ring to one consumer, which marks
every tag it sees.  A plan says how many producers there are and how many handles each of them
sends; both numbers fit in 32 bits, so that a tag has room for them.
-/

namespace BurstRing

/-- Why a stress check did not pass. -/
inductive StressError where
  | invalidParameters (detail : String)
  | lost (expected received : Nat)
  | duplicate (producer sequence : Nat)
  | unknownTag (tag : UInt64)
  | workerBroken
  deriving DecidableEq, Repr

def StressError.debug : StressError → String
  | .invalidParameters detail => Text.applied "InvalidParameters" (Text.quoted detail)
  | .lost expected received =>
      Text.record "Lost" [("expected", toString expected), ("received", toString received)]
  | .duplicate producer sequence =>
      Text.record "Duplicate"
        [("producer", toString producer), ("sequence", toString sequence)]
  | .unknownTag tag => Text.applied "UnknownTag" (toString tag.toNat)
  | .workerBroken => "WorkerPanicked"

/-- Most slots of a stress ring. -/
def maxStressCapacity : Nat := 65536

/-- How many producers there are, and how many handles each of them sends. -/
structure StressPlan where
  producers : Nat
  perProducer : Nat
  producers_pos : 0 < producers
  perProducer_pos : 0 < perProducer
  producers_lt : producers < UInt32.size
  perProducer_lt : perProducer < UInt32.size
  deriving DecidableEq

namespace StressPlan

/-- Checks that neither number is zero, then that both fit in a tag. -/
def ofWords (producers perProducer : UInt64) : Except StressError StressPlan :=
  let p := producers.toNat
  let m := perProducer.toNat
  if pos : 0 < p ∧ 0 < m then
    if lt : p < UInt32.size ∧ m < UInt32.size then
      .ok ⟨p, m, pos.1, pos.2, lt.1, lt.2⟩
    else
      .error (.invalidParameters s!"at most 2^{Tag.sequenceBits} handles per producer")
  else .error (.invalidParameters "producers and per-producer count must be non-zero")

/-- Handles that are sent in all; the product of two such numbers fits a word. -/
def total (p : StressPlan) : Nat := p.producers * p.perProducer

/-- Bits of the numbers below `n`. -/
def bitsBelow (n : Nat) : Nat := if n ≤ 1 then 0 else (n - 1).log2 + 1

/-- The least power of two that is not below `n`, from the number before it: if that has all the
bits of a word, the sum runs over. -/
def roundedUp (overflow : Overflow) (n : Nat) : Except Panic UInt64 :=
  overflow.add (1 <<< bitsBelow n - 1).toUInt64 1

/-- Slots of the ring: enough for all handles, within limits. -/
def capacity (overflow : Overflow) (p : StressPlan) : Except Panic UInt64 := do
  let slots ← roundedUp overflow p.total
  .ok (min (min slots maxStressCapacity.toUInt64) maxCapacity.toUInt64)

/-- The place of one handle among all of them. -/
def place (p : StressPlan) (producer sequence : Nat) : Nat :=
  producer * p.perProducer + sequence

end StressPlan

end BurstRing
