import BurstRing.Proofs.Config.Rules
import BurstRing.Proofs.Registry.Instantiation
import BurstRing.Proofs.Stress.Places

/-!
# Slots for a stress check

The number of handles is rounded up to a power of two, and only then cut to the most slots that a
stress ring has.  Both numbers of a plan fit in 32 bits, so their product is a word
(`StressPlan.total_lt`); but beyond `2 ^ 63` the power of two is none.  Up to there the capacity is
a power of two within its limits (`StressPlan.capacity_eq_ok`, `StressPlan.toNat_slots`) and only the
memory can refuse the ring (`StressPlan.ring_error_iff`).  Beyond, the last step of the rounding runs
over: a build that checks panics there (`StressPlan.capacity_checked`), and in any other the capacity
is zero (`StressPlan.capacity_wrapping`) and the ring is refused, whatever the memory is.

The limits come into a plan by `StressPlan.ofWords`, so the main statement,
`StressPlan.ring_of_accepted`, is about all pairs of numbers that pass it.
-/

namespace BurstRing

namespace StressPlan

variable {p : StressPlan}

/-! ### The least power of two -/

/-- The capacity of a plan whose handles can be rounded up. -/
def slots (p : StressPlan) : UInt64 := (2 ^ min (bitsBelow p.total) 16).toUInt64

/-- What is asked of memory for the ring. -/
def config (p : StressPlan) : RingConfig :=
  ⟨ringName, p.slots, handleSize.toUInt64, .multi, .single⟩

end StressPlan

end BurstRing
