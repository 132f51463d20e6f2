import BurstRing.Ring.Call

/-!
# Many callers on one ring

Any number of callers share a ring.  Each of them works on one thing at a time, a transfer or a
count, and does it in atomic steps; the steps of different callers come in any order.  A `Move`
lets one caller begin a work or take its next step, or spoils an exchange, so a list of moves is a
schedule, and `System.run` follows it.

A caller that has found another one on a side for one is broken: it begins nothing more.
-/

namespace BurstRing

/-- A count on its way: the consumer's tail is loaded before the producer's. -/
inductive Probe where
  | loadConsumerTail
  | loadProducerTail (consumerTail : UInt64)
  | done (count : Nat)
  deriving DecidableEq, Repr

/-- The next load. -/
def Probe.step (shape : Shape) (s : RingState) : Probe → Probe
  | .loadConsumerTail => .loadProducerTail s.consumer.tail
  | .loadProducerTail consumerTail =>
    .done (RingState.count shape consumerTail s.producer.tail)
  | .done count => .done count

/-- Something a caller does, as far as it has come. -/
inductive Work where
  | transfer (call : Call)
  | probe (probe : Probe)
  deriving Repr

/-- Something for a caller to do. -/
inductive Job where
  /-- Move up to `wanted` elements between the ring and `buffer`. -/
  | transfer (side : Side) (behavior : Behavior) (access : Access) (wanted : UInt64)
    (buffer : Array UInt8)
  /-- Count the elements. -/
  | count
  deriving Repr

/-- The job, not yet begun. -/
def Job.begin : Job → Work
  | .transfer side behavior access wanted buffer =>
    .transfer (.begin side behavior access wanted buffer)
  | .count => .probe .loadConsumerTail

namespace Work

/-- The next atomic step. -/
def step (shape : Shape) : RingState → Work → RingState × Work
  | s, .transfer call =>
    let (s, call) := call.step shape s
    (s, .transfer call)
  | s, .probe p => (s, .probe (p.step shape s))

/-- An exchange fails although the head has not moved. -/
def spoil : Work → Work
  | .transfer call => .transfer call.spoil
  | .probe p => .probe p

/-- The work has come to its end. -/
def isDone : Work → Bool
  | .transfer call =>
    match call.phase with
    | .done _ => true
    | _ => false
  | .probe (.done _) => true
  | .probe _ => false

end Work

/-- What one caller has done, newest first; only the newest work can have steps left. -/
structure Caller where
  works : List Work
  deriving Repr

namespace Caller

/-- A caller that has done nothing. -/
def fresh : Caller := ⟨[]⟩

/-- The caller may begin something. -/
def isIdle (c : Caller) : Bool := c.works.head?.all Work.isDone

/-- Begins `job`, unless the caller is busy or broken. -/
def start (job : Job) (c : Caller) : Caller :=
  if c.isIdle then ⟨job.begin :: c.works⟩ else c

/-- The next step of the newest work. -/
def step (shape : Shape) : RingState → Caller → RingState × Caller
  | s, ⟨[]⟩ => (s, ⟨[]⟩)
  | s, ⟨work :: works⟩ =>
    let (s, work) := work.step shape s
    (s, ⟨work :: works⟩)

/-- The newest work's exchange fails although the head has not moved. -/
def spoil : Caller → Caller
  | ⟨[]⟩ => ⟨[]⟩
  | ⟨work :: works⟩ => ⟨work.spoil :: works⟩

end Caller

/-- A ring with everybody who works on it. -/
structure System where
  shape : Shape
  state : RingState
  callers : Array Caller

/-- One move in a schedule. -/
inductive Move where
  | start (caller : Nat) (job : Job)
  | step (caller : Nat)
  /-- The exchange that the caller is about to make fails for no reason. -/
  | spoil (caller : Nat)
  deriving Repr

namespace System

/-- An empty ring and so many callers who have done nothing. -/
def create (shape : Shape) (callers : Nat) : System :=
  ⟨shape, .startingAt 0, Array.replicate callers .fresh⟩

/-- Makes one move; one of a caller who is not there changes nothing. -/
def act : Move → System → System
  | .start i job, s => { s with callers := s.callers.modify i (Caller.start job) }
  | .step i, ⟨shape, state, callers⟩ =>
    match callers[i]? with
    | none => ⟨shape, state, callers⟩
    | some caller =>
      let (state, caller) := caller.step shape state
      ⟨shape, state, callers.setIfInBounds i caller⟩
  | .spoil i, s => { s with callers := s.callers.modify i Caller.spoil }

/-- Follows a schedule. -/
def run (schedule : List Move) (s : System) : System := schedule.foldl (fun s m => s.act m) s

/-- The newest work of a caller. -/
def newest? (s : System) (i : Nat) : Option Work := s.callers[i]?.bind fun c => c.works.head?

/-- Elements in the ring, when both tails are read at once. -/
def count (s : System) : Nat := RingState.count s.shape s.state.consumer.tail s.state.producer.tail

end System

end BurstRing
