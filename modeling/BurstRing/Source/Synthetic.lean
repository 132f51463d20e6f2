import BurstRing.Source.Basic

/-!
# Synthetic sources

A source that makes up handles by counting, as many as it is asked for, and counts those that come
back.  It answers to one identifier and has one channel, of number zero.
-/

namespace BurstRing

/-- The source's identifier, the next handle, and the number of handles that came back. -/
structure SyntheticSource where
  id : SourceId
  next : UInt64
  released : UInt64
  deriving DecidableEq, Repr

namespace SyntheticSource

def starting (id : SourceId) : SyntheticSource := ⟨id, 0, 0⟩

/-- The handles from `next` up to, and without, `stop`; none if the count has wrapped. -/
def handles (next stop : UInt64) : Array UInt64 :=
  (Array.range (stop.toNat - next.toNat)).map fun i => next + i.toUInt64

def receive (source : SourceId) (channel : ChannelId) (_held max : Nat) (s : SyntheticSource) :
    Burst × SyntheticSource :=
  if source ≠ s.id then (⟨#[], .error (.unknownSource source)⟩, s)
  else if channel.value ≠ 0 then (⟨#[], .error (.unknownChannel source channel)⟩, s)
  else
    let stop := s.next + max.toUInt64
    (⟨handles s.next stop, .ok max⟩, { s with next := stop })

def release (_handle : UInt64) (s : SyntheticSource) : SyntheticSource :=
  { s with released := s.released + 1 }

instance : BurstSource SyntheticSource := ⟨receive, release⟩

end SyntheticSource

end BurstRing
