import BurstRing.Name
import BurstRing.Policy
import BurstRing.Flush

/-!
# Settings

The settings of rings, of the pipeline loop and of receive caches, once they have been checked.
-/

namespace BurstRing

/-- One ring to create.  Its numbers are words; whether a ring can have them shows at creation. -/
structure RingConfig where
  name : RingName
  capacity : UInt64
  elementSize : UInt64
  producer : SyncMode
  consumer : SyncMode
  deriving DecidableEq

structure PipelineConfig where
  flushInterval : FlushInterval
  burstSize : UInt64
  deriving DecidableEq

structure CacheConfig where
  size : UInt64
  locality : Locality
  deriving DecidableEq

/-- A complete configuration. -/
structure Config where
  rings : List RingConfig
  pipeline : PipelineConfig
  cache : CacheConfig
  deriving DecidableEq

end BurstRing
