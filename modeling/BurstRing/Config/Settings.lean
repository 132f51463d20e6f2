import BurstRing.Ring.Shape
import BurstRing.Policy

/-!
# Settings as written

A configuration before anything about it has been checked but the kinds of its values.  What may
be left out has its default here.
-/

namespace BurstRing

/-- Flush interval of a loop that names none. -/
def defaultFlushInterval : UInt32 := 1024

/-- Burst size of a loop that names none. -/
def defaultBurstSize : UInt64 := 32

/-- Size of a receive cache that names none. -/
def defaultCacheSize : UInt64 := 32

structure RingSettings where
  name : String
  capacity : UInt64
  elementSize : UInt64 := handleSize.toUInt64
  producer : SyncMode := .multi
  consumer : SyncMode := .multi
  deriving DecidableEq, Repr

structure LoopSettings where
  flushInterval : UInt32 := defaultFlushInterval
  burstSize : UInt64 := defaultBurstSize
  deriving DecidableEq, Repr

structure CacheSettings where
  size : UInt64 := defaultCacheSize
  /-- The memory node to be close to. -/
  node : Option UInt64 := none
  deriving DecidableEq, Repr

structure Settings where
  rings : List RingSettings
  pipeline : LoopSettings
  cache : CacheSettings
  deriving DecidableEq, Repr

end BurstRing
