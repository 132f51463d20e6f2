import BurstRing.Ring.Shape
import BurstRing.Ring.Cursors

/-!
# Slot storage

The bytes of all slots in a row: the slot of number `i` starts at byte `i * elementSize`.  Only
the bytes written so far are kept, and all others are zero.

A claim covers consecutive positions, and a position lies in the slot that its low bits name.  So
the claim is a run of slots up to the end of the storage and, if it wraps, a second run from the
start (`Runs`).
-/

namespace BurstRing

/-- The bytes of all slots; those beyond the array are zero. -/
structure Storage where
  bytes : Array UInt8
  deriving Repr

namespace Storage

/-- Storage that has never been written. -/
def blank : Storage := ⟨#[]⟩

def get (s : Storage) (i : Nat) : UInt8 := s.bytes.getD i 0

/-- Sets byte `i`, and keeps the zeros before it if it lies beyond what has been written. -/
def set (s : Storage) (i : Nat) (b : UInt8) : Storage :=
  if i < s.bytes.size then ⟨s.bytes.setIfInBounds i b⟩
  else ⟨(s.bytes ++ Array.replicate (i - s.bytes.size) 0).push b⟩

/-- Copies `n` bytes of `source` from byte `offset` on to byte `pos` on. -/
def write (s : Storage) (source : Array UInt8) : (n pos offset : Nat) → Storage
  | 0, _, _ => s
  | n + 1, pos, offset =>
    write (s.set pos (source.getD offset 0)) source n (pos + 1) (offset + 1)

/-- Copies `n` bytes from byte `pos` on over those of `target` from byte `offset` on. -/
def read (s : Storage) (target : Array UInt8) : (n pos offset : Nat) → Array UInt8
  | 0, _, _ => target
  | n + 1, pos, offset =>
    read s (target.setIfInBounds offset (s.get pos)) n (pos + 1) (offset + 1)

end Storage

/-- A claim as slots: `first` of them from slot `index` on, then `rest` from slot 0 on. -/
structure Runs where
  index : Nat
  first : Nat
  rest : Nat
  deriving DecidableEq, Repr

/-- Cuts `n` positions from `start` on at the end of the storage. -/
def Runs.cut (shape : Shape) (start : UInt64) (n : Nat) : Runs :=
  let index := (start &&& shape.mask).toNat
  let first := min n (shape.capacity - index)
  ⟨index, first, n - first⟩

/-- The runs of a claim. -/
def Claim.runs (shape : Shape) (c : Claim) : Runs := .cut shape c.start c.len.toNat

/-- Cuts a claim, unless its length is too much for the build. -/
def Claim.split (shape : Shape) (c : Claim) : Except Panic Runs := do
  let n ← c.length shape.overflow
  .ok (.cut shape c.start n.toNat)

/-- Slot of the element of number `i`. -/
def Runs.slot (r : Runs) (i : Nat) : Nat :=
  if i < r.first then r.index + i else i - r.first

namespace Storage

/-- Stores element `i` of `source` in its slot under `claim`. -/
def putElement (shape : Shape) (claim : Claim) (source : Array UInt8) (i : Nat)
    (s : Storage) : Storage :=
  let w := shape.elementSize
  s.write source w ((claim.runs shape).slot i * w) (i * w)

/-- Fetches element `i` under `claim` from its slot into `target`. -/
def getElement (shape : Shape) (claim : Claim) (target : Array UInt8) (i : Nat)
    (s : Storage) : Array UInt8 :=
  let w := shape.elementSize
  s.read target w ((claim.runs shape).slot i * w) (i * w)

end Storage

end BurstRing
