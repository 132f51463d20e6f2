import BurstRing.Flush
import BurstRing.Overflow

/-!
# Shapes and memory

A ring has a power of two of slots, at most `2 ^ 28`, and each slot holds a record whose width is
a non-zero multiple of four bytes; the whole storage is addressed by a 64-bit word.  `Shape` is
such a pair of numbers, with the arithmetic of the build that the ring lives in.  Shapes are made
for a build that does not check for overflow, and `Shape.inBuild` carries them over to another.
Whether the bytes can be had is up to the `Memory` at hand.
-/

namespace BurstRing

/-- Fewest slots of a ring. -/
def minCapacity : Nat := 1

/-- Most slots of a ring: `2 ^ 28`. -/
def maxCapacity : Nat := 268435456

/-- Bytes of one handle. -/
def handleSize : Nat := 8

/-- Number of slots and width of a record, as a ring can have them. -/
structure Shape where
  capacity : Nat
  elementSize : Nat
  capacity_pow : isPowerOfTwo capacity = true
  capacity_le : capacity ≤ maxCapacity
  elementSize_pos : elementSize ≠ 0
  elementSize_mod : elementSize % 4 = 0
  bytes_lt : capacity * elementSize < UInt64.size
  /-- What the build does where the length of a claim runs over. -/
  overflow : Overflow
  deriving DecidableEq

namespace Shape

/-- Bytes of the whole storage. -/
def bytes (s : Shape) : Nat := s.capacity * s.elementSize

/-- The low bits of a position, which name its slot. -/
def mask (s : Shape) : UInt64 := s.capacity.toUInt64 - 1

/-- The same slots in such a build. -/
def inBuild (overflow : Overflow) (s : Shape) : Shape := { s with overflow }

/-- Checks the slots, then the width, then the product. -/
def ofWords (capacity elementSize : UInt64) : Except RingError Shape :=
  let n := capacity.toNat
  let w := elementSize.toNat
  if hn : isPowerOfTwo n = true ∧ n ≤ maxCapacity then
    if hw : w ≠ 0 ∧ w % 4 = 0 then
      if hb : n * w < UInt64.size then
        .ok ⟨n, w, hn.1, hn.2, hw.1, hw.2, hb, .wrapping⟩
      else .error (.storageOverflow n w)
    else .error (.invalidElementSize w)
  else .error (.invalidCapacity n minCapacity maxCapacity)

end Shape

/-- Which reservations of so many bytes succeed. -/
structure Memory where
  grants : Nat → Bool

/-- Memory that grants every reservation of fewer than `limit` bytes. -/
def Memory.below (limit : Nat) : Memory := ⟨fun bytes => bytes < limit⟩

end BurstRing
