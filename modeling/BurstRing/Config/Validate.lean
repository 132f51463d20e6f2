import BurstRing.Config.Basic
import BurstRing.Config.Settings

/-!
# Checking settings

Settings become a configuration if every one of them is in its range and no two rings share a
name.  The first check that fails is reported: the loop's settings, then the cache's, then each
ring's in turn, and last that there is a ring at all.
-/

namespace BurstRing

/-- Most handles of a burst. -/
def maxBurstSize : Nat := 1024

/-- Most handles of a receive cache. -/
def maxCacheSize : Nat := 65535

namespace LoopSettings

def validate (s : LoopSettings) : Except SettingError PipelineConfig := do
  let flushInterval ← (FlushInterval.ofWord s.flushInterval).mapError fun e =>
    .invalidValue "flush_interval" (toString s.flushInterval.toNat) e.message
  let n := s.burstSize.toNat
  if 1 ≤ n ∧ n ≤ maxBurstSize then .ok ⟨flushInterval, s.burstSize⟩
  else
    .error (.invalidValue "burst_size" (toString n) s!"Must be between 1 and {maxBurstSize}")

end LoopSettings

namespace CacheSettings

def validate (s : CacheSettings) : Except SettingError CacheConfig :=
  let n := s.size.toNat
  if 1 ≤ n ∧ n ≤ maxCacheSize then
    .ok ⟨s.size, match s.node with
      | some node => .node node
      | none => .any⟩
  else
    .error (.invalidValue "receive_cache.size" (toString n)
      s!"Must be between 1 and {maxCacheSize}")

end CacheSettings

namespace RingSettings

/-- Checks the ring at place `index`: name, capacity, width. -/
def validate (index : Nat) (s : RingSettings) : Except SettingError RingConfig := do
  let name ← RingName.ofString s.name
  let n := s.capacity.toNat
  let w := s.elementSize.toNat
  if !(isPowerOfTwo n && decide (n ≤ maxCapacity)) then
    .error (.invalidValue "capacity" (toString n)
      (s!"Ring {name.text} at index {index}: capacity must be a power of two "
        ++ s!"no larger than {maxCapacity}"))
  else if w == 0 || w % 4 != 0 then
    .error (.invalidValue "element_size" (toString w)
      s!"Ring {name.text} at index {index}: element size must be a non-zero multiple of 4")
  else .ok ⟨name, s.capacity, s.elementSize, s.producer, s.consumer⟩

/-- Checks the rings on from place `index`, none of which may have a name of `seen`. -/
def validateAll : (index : Nat) → (seen : List RingName) → List RingSettings →
    Except SettingError (List RingConfig)
  | _, _, [] => .ok []
  | index, seen, s :: rest => do
    let ring ← s.validate index
    if ring.name ∈ seen then .error (.duplicateRing ring.name.text)
    else
      let rings ← validateAll (index + 1) (ring.name :: seen) rest
      .ok (ring :: rings)

end RingSettings

namespace Settings

def validate (s : Settings) : Except SettingError Config := do
  let pipeline ← s.pipeline.validate
  let cache ← s.cache.validate
  let rings ← RingSettings.validateAll 0 [] s.rings
  if rings.isEmpty then .error (.schema "At least one ring must be defined")
  else .ok ⟨rings, pipeline, cache⟩

end Settings

end BurstRing
