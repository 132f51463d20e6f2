import BurstRing.Name
import BurstRing.Ring.Basic
import BurstRing.Ring.System
import BurstRing.Ring.Tag
import Std.Data.TreeSet

/-!
# Tagged traffic

Some producers send the tags of their sequences through one ring, in batches that are taken up
again where a burst fell short, and some consumers take whatever they find.  All of them are
callers of one `System`, and they take their atomic steps in turn.

Afterwards `Traffic.report` tells what has come through: each tag once, each producer's tags in
order for each consumer, and every record whole.
-/

namespace BurstRing

/-- Who sends how much, and how. -/
structure TrafficPlan where
  producers : Nat
  consumers : Nat
  /-- Tags that each producer sends. -/
  perProducer : Nat
  /-- Most tags of one burst. -/
  batch : Nat
  producerMode : SyncMode
  consumerMode : SyncMode
  deriving Repr

/-- Traffic on its way. -/
structure Traffic where
  plan : TrafficPlan
  system : System
  /-- Tags that each producer has sent. -/
  sent : Array Nat
  /-- Tags that each consumer has taken, in order. -/
  taken : Array (Array UInt64)
  /-- Every record taken so far was whole. -/
  intact : Bool

/-- What has come through. -/
structure TrafficReport where
  received : Nat
  distinct : Nat
  /-- Sum of the tags, as a word. -/
  sum : UInt64
  /-- Each consumer found each producer's tags ascending. -/
  ordered : Bool
  intact : Bool
  /-- Elements still in the ring. -/
  left : Nat
  deriving Repr

namespace TrafficPlan

/-- Tags that are sent in all. -/
def total (p : TrafficPlan) : Nat := p.producers * p.perProducer

/-- The burst of `producer` that begins with its tag number `sequence`. -/
def burst (p : TrafficPlan) (width producer sequence : Nat) : Job :=
  let n := min p.batch (p.perProducer - sequence)
  let records := (List.range n).flatMap fun i =>
    Tag.record width (Tag.ofPair producer.toUInt64 (sequence + i).toUInt64)
  .transfer .producer .atMost (.shared p.producerMode) n.toUInt64 records.toArray

/-- The burst that a consumer asks for. -/
def request (p : TrafficPlan) (width : Nat) : Job :=
  .transfer .consumer .atMost (.shared p.consumerMode) p.batch.toUInt64
    (Array.replicate (p.batch * width) 0)

end TrafficPlan

namespace Traffic

/-- Traffic on a ring of `shape` that has not begun; the producers come before the consumers. -/
def create (plan : TrafficPlan) (shape : Shape) : Traffic where
  plan := plan
  system := .create shape (plan.producers + plan.consumers)
  sent := Array.replicate plan.producers 0
  taken := Array.replicate plan.consumers #[]
  intact := true

/-- Tags taken so far. -/
def received (t : Traffic) : Nat := t.taken.foldl (fun n tags => n + tags.size) 0

def isOver (t : Traffic) : Bool := t.plan.total ≤ t.received

/-- What caller `i` does next, if there is anything left for it. -/
def nextJob? (t : Traffic) (i : Nat) : Option Job :=
  let width := t.system.shape.elementSize
  match t.sent[i]? with
  | some sequence =>
    if sequence < t.plan.perProducer then some (t.plan.burst width i sequence) else none
  | none => some (t.plan.request width)

/-- Files what a finished call of caller `i` has moved. -/
def file (i : Nat) (call : Call) (t : Traffic) : Traffic :=
  match call.side with
  | .producer => { t with sent := t.sent.modify i (· + call.moved) }
  | .consumer =>
    let width := t.system.shape.elementSize
    let places := (List.range call.moved).map (· * width)
    { t with
      taken := t.taken.modify (i - t.plan.producers)
        (· ++ (places.map (Tag.ofRecord call.buffer)).toArray)
      intact := t.intact && places.all (Tag.isIntact width call.buffer) }

/-- One move of caller `i`: it begins something if it is idle, and else takes a step. -/
def turn (i : Nat) (t : Traffic) : Traffic :=
  if (t.system.newest? i).all Work.isDone then
    match t.nextJob? i with
    | some job => { t with system := t.system.act (.start i job) }
    | none => t
  else
    let t := { t with system := t.system.act (.step i) }
    match t.system.newest? i with
    | some (.transfer call) =>
      match call.phase with
      | .done _ => t.file i call
      | _ => t
    | _ => t

/-- One turn of every caller. -/
def round (t : Traffic) : Traffic :=
  (List.range t.system.callers.size).foldl (fun t i => t.turn i) t

/-- Rounds until everything has been taken, but `fuel` at most. -/
def run : (fuel : Nat) → Traffic → Traffic
  | 0, t => t
  | fuel + 1, t => if t.isOver then t else run fuel t.round

/-! ### Looking at what came through -/

/-- Every number is above the one before. -/
def isAscending : List UInt64 → Bool
  | a :: b :: rest => a < b && isAscending (b :: rest)
  | _ => true

/-- One consumer found the tags of `producer` ascending. -/
def inOrder (tags : Array UInt64) (producer : Nat) : Bool :=
  isAscending (tags.toList.filter fun tag => Tag.producer tag == producer.toUInt64)

def report (t : Traffic) : TrafficReport :=
  let tags := t.taken.flatten
  { received := tags.size
    distinct := (Std.TreeSet.ofArray tags).size
    sum := tags.foldl (· + ·) 0
    ordered := t.taken.all fun tags => (List.range t.plan.producers).all (inOrder tags)
    intact := t.intact
    left := t.system.count }

end Traffic

end BurstRing
