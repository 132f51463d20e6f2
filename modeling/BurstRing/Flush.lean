import BurstRing.Error

/-!
# Flush intervals and placement

A pipeline loop flushes every so many iterations.  The number is zero, which means never, or a
power of two, so that a flush is due when the low bits of the iteration are clear.
-/

namespace BurstRing

/-- Being a power of two. -/
def isPowerOfTwo (n : Nat) : Bool := n != 0 && n &&& (n - 1) == 0

/-- Zero, or a power of two. -/
structure FlushInterval where
  value : UInt32
  valid : value = 0 ∨ isPowerOfTwo value.toNat = true
  deriving DecidableEq

namespace FlushInterval

/-- Never flush and never ask the control callback. -/
def never : FlushInterval := ⟨0, .inl rfl⟩

def ofWord (interval : UInt32) : Except PipelineError FlushInterval :=
  if h : interval = 0 ∨ isPowerOfTwo interval.toNat = true then .ok ⟨interval, h⟩
  else .error (.invalidFlushInterval interval)

def isNever (f : FlushInterval) : Bool := f.value == 0

/-- The iteration, counted from one, is a flush point. -/
def isDue (f : FlushInterval) (iteration : UInt64) : Bool :=
  f.value != 0 && iteration &&& (f.value.toUInt64 - 1) == 0

def text (f : FlushInterval) : String :=
  if f.isNever then "never" else toString f.value.toNat

theorem ofWord_value (f : FlushInterval) : ofWord f.value = .ok f := by
  simp [ofWord, f.valid]

end FlushInterval

/-- Where a buffer or a worker would like to be. -/
inductive Locality where
  | any
  /-- Close to this memory node. -/
  | node (index : UInt64)
  deriving DecidableEq, Repr, Inhabited

namespace Locality

def text : Locality → String
  | .any => "any"
  | .node n => s!"node {n.toNat}"

def debug : Locality → String
  | .any => "Any"
  | .node n => Text.applied "Node" (toString n.toNat)

end Locality

end BurstRing
