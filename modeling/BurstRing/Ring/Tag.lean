import BurstRing.Ring.Handle

/-!
# Tagged handles

A tag is a handle that tells who sent it and when: the number of the producer stands above bit 32,
the place in that producer's sequence below.  A record that is wider than a handle holds the tag in
its first bytes and repeats the tag's lowest byte in all others.
-/

namespace BurstRing.Tag

/-- Bits of the sequence. -/
def sequenceBits : Nat := 32

/-- The tag of element `sequence` of `producer`. -/
def ofPair (producer sequence : UInt64) : UInt64 :=
  (producer <<< sequenceBits.toUInt64) ||| sequence

def producer (tag : UInt64) : UInt64 := tag >>> sequenceBits.toUInt64

def sequence (tag : UInt64) : UInt64 := tag &&& ((1 <<< sequenceBits.toUInt64) - 1)

/-! ### Tags in wider records -/

/-- The tag as a record of `width` bytes. -/
def record (width : Nat) (tag : UInt64) : List UInt8 :=
  (Handle.bytes tag ++ List.replicate (width - handleSize) (Handle.byte tag 0)).take width

/-- The tag of the record that starts at byte `i` of `buffer`. -/
def ofRecord (buffer : Array UInt8) (i : Nat) : UInt64 := Handle.ofBytes buffer i

/-- The record of `width` bytes that starts at byte `i` of `buffer` is that of its tag. -/
def isIntact (width : Nat) (buffer : Array UInt8) (i : Nat) : Bool :=
  (buffer.extract i (i + width)).toList == record width (ofRecord buffer i)

end BurstRing.Tag
