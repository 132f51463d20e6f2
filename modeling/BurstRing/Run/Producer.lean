import BurstRing.Pipeline.Loop
import BurstRing.ReceiveCache
import BurstRing.Source.Synthetic
import BurstRing.Config.Basic

/-!
# The producers of a run

A producer refills its cache from a synthetic source whenever the cache is exhausted, and forwards
into the ring whatever that accepts.  Every so many refills it sees the link of its source change.
Between any two rounds it looks at the stop switch, and once that is raised it closes its cache.
-/

namespace BurstRing

/-- Refills from one change of the link to the next. -/
def linkFlapPeriod : UInt64 := 4096

/-- What a producer has done when it is over. -/
structure ProducerStats where
  generated : UInt64
  forwarded : UInt64
  released : UInt64
  deriving DecidableEq, Repr

/-- Where a producer stands. -/
inductive ProducerPhase where
  /-- About to look at the switch. -/
  | poll
  /-- About to refill if need be, and to forward. -/
  | work
  | done (stats : ProducerStats)
  /-- A refill failed. -/
  | starved (cause : SourceError)
  /-- A forward failed. -/
  | blocked (cause : TransferFault)

/-- A producer on its way. -/
structure Producer where
  cache : ReceiveCache SyntheticSource
  forwarded : UInt64
  refills : UInt64
  phase : ProducerPhase

namespace Producer

/-- A producer of identifier `id` that has not begun. -/
def create (memory : Memory) (id : SourceId) (config : CacheConfig) :
    Except SourceError Producer := do
  let cache ← ReceiveCache.create memory (SyntheticSource.starting id)
    (CacheHeader.ofIds id ⟨0⟩) config.size config.locality
  .ok ⟨cache, 0, 0, .poll⟩

def isOver (p : Producer) : Bool :=
  match p.phase with
  | .poll | .work => false
  | _ => true

/-- What the producer has done, once it is over. -/
def stats? (p : Producer) : Option ProducerStats :=
  match p.phase with
  | .done stats => some stats
  | _ => none

/-- Closes the cache. -/
def retire (p : Producer) : Producer :=
  let generated := p.cache.source.next
  let (_, source) := p.cache.close
  { p with phase := .done ⟨generated, p.forwarded, source.released⟩ }

/-- Refills an exhausted cache; tells whether the link changed. -/
def replenish (p : Producer) : Except SourceError Bool × Producer :=
  if p.cache.isExhausted then
    match p.cache.refill with
    | (.error e, cache) => (.error e, { p with cache })
    | (.ok _, cache) =>
      let refills := p.refills + 1
      (.ok (refills % linkFlapPeriod == 0), { p with cache, refills })
  else (.ok false, p)

/-- Forwards what the ring accepts. -/
def forward (ring : Ring) (p : Producer) : Ring × Producer :=
  match p.cache.forward ring with
  | (.ok moved, cache, ring) =>
    (ring, { p with cache, forwarded := p.forwarded + moved.toUInt64, phase := .poll })
  | (.error e, cache, ring) => (ring, { p with cache, phase := .blocked e })

/-- One move while the switch stands at `stop`; tells whether the link changed. -/
def advance (stop : StopSwitch) (ring : Ring) (p : Producer) : Bool × Ring × Producer :=
  match p.phase with
  | .poll => (false, ring, if stop.raised then p.retire else { p with phase := .work })
  | .work =>
    match p.replenish with
    | (.error e, p) => (false, ring, { p with phase := .starved e })
    | (.ok changed, p) => (changed, p.forward ring)
  | .done _ | .starved _ | .blocked _ => (false, ring, p)

end Producer

end BurstRing
