import BurstRing.Ring.Shape

/-!
# Handles as records

A handle is a 64-bit word.  In a slot it takes eight bytes, least significant first.
-/

namespace BurstRing.Handle

/-- Byte `i` of `h`. -/
def byte (h : UInt64) (i : Nat) : UInt8 := (h >>> (8 * i).toUInt64).toUInt8

/-- The eight bytes of `h`. -/
def bytes (h : UInt64) : List UInt8 := (List.range handleSize).map (byte h)

/-- The handle whose bytes start at byte `i` of `buffer`. -/
def ofBytes (buffer : Array UInt8) (i : Nat) : UInt64 :=
  (List.range handleSize).foldr (fun j h => (h <<< 8) ||| (buffer.getD (i + j) 0).toUInt64) 0

/-- The bytes of `handles` in a row. -/
def pack (handles : Array UInt64) : Array UInt8 :=
  handles.foldl (fun out h => (bytes h).foldl Array.push out) #[]

/-- The first `n` handles of `buffer`. -/
def unpack (buffer : Array UInt8) (n : Nat) : Array UInt64 :=
  (Array.range n).map fun i => ofBytes buffer (i * handleSize)

end BurstRing.Handle
