import BurstRing.CommandTable
import BurstRing.Run.Consumer
import BurstRing.Run.Producer

/-!
# Sessions

A session drives synthetic traffic through the first handle ring of a configuration: each producer
forwards from a receive cache of its own, and one consumer drains the ring under a pipeline loop.
The workers move one at a time and in any order, and at some moment the switch is raised that stops
them all; a list of moves is a schedule.

When all workers are over, the session accounts for every handle: what was generated has been
forwarded or released, and what was forwarded has been delivered or is left in the ring.
-/

namespace BurstRing

/-- Most producers of a session: one for each source identifier. -/
def maxProducers : Nat := UInt16.size

/-- Why a session cannot begin, or did not end. -/
inductive RunError where
  | invalidProducerCount (max : Nat)
  | noHandleRing
  | singleProducerRing (name : String) (producers : Nat)
  | workerBroken
  deriving DecidableEq, Repr

def RunError.debug : RunError → String
  | .invalidProducerCount max => Text.record "InvalidProducerCount" [("max", toString max)]
  | .noHandleRing => "NoHandleRing"
  | .singleProducerRing name producers =>
      Text.record "SingleProducerRing"
        [("name", Text.quoted name), ("producers", toString producers)]
  | .workerBroken => "WorkerPanicked"

/-- What went wrong with a session. -/
inductive SessionFault where
  | refused (cause : RunError)
  | failed (cause : Failure)
  deriving DecidableEq, Repr

def SessionFault.debug : SessionFault → String
  | .refused cause => cause.debug
  | .failed cause => cause.debug

/-- Producers and a consumer at work on one ring.  The registry holds the ring as it was at the
beginning, until the session is over. -/
structure Session where
  registry : Registry
  target : RingRef
  ring : Ring
  links : LinkCounts
  subscriptions : Array Subscription
  producers : Array Producer
  consumer : Consumer
  stop : StopSwitch

/-- One move in a schedule. -/
inductive SessionMove where
  | producer (index : Nat)
  | consumer
  /-- Raise the switch. -/
  | stop
  deriving DecidableEq, Repr

/-- The accounts of a session that is over. -/
structure SessionReport where
  loop : LoopReport
  generated : UInt64
  forwarded : UInt64
  released : UInt64
  delivered : UInt64
  left : UInt64
  deriving DecidableEq, Repr

/-- Every handle is accounted for. -/
def SessionReport.closes (r : SessionReport) : Bool :=
  r.forwarded == r.delivered + r.left && r.generated == r.forwarded + r.released

namespace Session

/-! ### The beginning -/

/-- The sources of so many producers. -/
def sources (producers : Nat) : List SourceId :=
  (List.range producers).map fun i => ⟨i.toUInt16⟩

/-- The first of `refs` whose ring holds handles. -/
def findTarget? (g : Registry) (refs : List RingRef) : Option (RingRef × Ring) :=
  refs.findSome? fun ref => (g.ring? ref).bind fun ring =>
    if ring.elementSize = handleSize then some (ref, ring) else none

/-- Checks the number of producers, creates the rings, and chooses the one to drive; a side for
one takes one producer. -/
def prepare (memory : Memory) (config : Config) (producers : UInt64) :
    Except SessionFault Session := do
  let n := producers.toNat
  if n = 0 ∨ maxProducers < n then .error (.refused (.invalidProducerCount maxProducers))
  let (refs, registry) := Registry.empty.createAll memory config.rings
  let refs ← refs.mapError .failed
  match findTarget? registry refs with
  | none => .error (.refused .noHandleRing)
  | some (target, ring) =>
    if 1 < n ∧ ring.producerMode = .single then
      .error (.refused (.singleProducerRing ring.name.text n))
    let (subscriptions, links) := LinkCounts.empty.subscribeAll (sources n)
    let subscriptions ← subscriptions.mapError (.failed ∘ .linkState)
    let workers ← ((sources n).mapM fun id => Producer.create memory id config.cache).mapError
      (.failed ∘ .source)
    let consumer ← (Consumer.create config.pipeline ring).mapError (.failed ∘ .ring)
    .ok ⟨registry, target, ring, links, subscriptions.toArray, workers.toArray, consumer,
      ⟨false⟩⟩

/-! ### Moves -/

/-- One move of a producer. -/
def moveProducer (i : Nat) : Session → Session
  | ⟨registry, target, ring, links, subscriptions, producers, consumer, stop⟩ =>
    match producers[i]?, subscriptions[i]? with
    | some producer, some subscription =>
      let (changed, ring, producer) := producer.advance stop ring
      let links := if changed then links.record subscription .statusChange else links
      ⟨registry, target, ring, links, subscriptions, producers.setIfInBounds i producer, consumer,
        stop⟩
    | _, _ => ⟨registry, target, ring, links, subscriptions, producers, consumer, stop⟩

/-- One move of the consumer. -/
def moveConsumer : Session → Session
  | ⟨registry, target, ring, links, subscriptions, producers, consumer, stop⟩ =>
    let (ring, consumer) := consumer.advance stop ring
    ⟨registry, target, ring, links, subscriptions, producers, consumer, stop⟩

/-- Makes one move. -/
def act : SessionMove → Session → Session
  | .producer i, s => s.moveProducer i
  | .consumer, s => s.moveConsumer
  | .stop, s => { s with stop := ⟨true⟩ }

/-- Follows a schedule. -/
def follow (schedule : List SessionMove) (s : Session) : Session :=
  schedule.foldl (fun s m => s.act m) s

/-- One move of every worker, the consumer last. -/
def round (s : Session) : Session :=
  ((List.range s.producers.size).foldl (fun s i => s.moveProducer i) s).moveConsumer

/-- So many rounds. -/
def rounds (n : Nat) (s : Session) : Session := n.repeat round s

/-! ### The end -/

/-- No worker moves any more. -/
def isOver (s : Session) : Bool := s.producers.all Producer.isOver && s.consumer.isOver

/-- Rounds until no worker moves any more, but `fuel` at most. -/
def finish : (fuel : Nat) → Session → Session
  | 0, s => s
  | fuel + 1, s => if s.isOver then s else finish fuel s.round

/-- Raises the switch and waits for the workers.  The consumer stops at its next flush point at the
latest, so an interval and a few more rounds are enough. -/
def conclude (s : Session) : Session :=
  (s.act .stop).finish (s.consumer.interval.value.toNat + 5)

/-- What a producer has done.  One that is not over counts as one that broke off. -/
def account (p : Producer) : Except SessionFault ProducerStats :=
  match p.phase with
  | .done stats => .ok stats
  | .starved cause => .error (.failed (.source cause))
  | .blocked (.refused cause) => .error (.failed (.ring cause))
  | .blocked _ | .poll | .work => .error (.refused .workerBroken)

/-- The accounts: those of the producers in order, and then the consumer's. -/
def report (s : Session) : Except SessionFault SessionReport := do
  let stats ← s.producers.toList.mapM account
  match s.consumer.loop with
  | .inl _ => .error (.refused .workerBroken)
  | .inr (.error cause) => .error (.failed (.pipeline cause))
  | .inr (.ok loop) =>
    let total (amount : ProducerStats → UInt64) : UInt64 :=
      stats.foldl (fun sum stat => sum + amount stat) 0
    .ok ⟨loop, total (·.generated), total (·.forwarded), total (·.released),
      s.consumer.delivered, s.ring.count.toUInt64⟩

/-- Answers a diagnostic request about the rings and links as they are now. -/
def diagnose (request : String) (s : Session) : Except Failure Json :=
  let (_, registry) := s.registry.update s.target fun _ => ((), s.ring)
  (CommandTable.withDefaults ⟨0⟩ ⟨0⟩).execute (.only registry s.links) request

end Session

end BurstRing
