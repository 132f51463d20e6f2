import BurstRing.Error
import BurstRing.Json.Basic
import Std.Data.TreeMap

/-!
# Link-state counters

A source has at most one subscription at a time.  Through it the events of the source are recorded,
and the changes of its link status are counted in a 64-bit word that wraps.  Each subscription
brings a counter of its own, which stays readable after the subscription is gone and is never used
again.
-/

namespace BurstRing

/-- What may happen to a source. -/
inductive LinkEvent where
  /-- The link went up or down. -/
  | statusChange
  | reset
  | removed
  deriving DecidableEq, Repr

/-- Which of all counters ever created. -/
structure CounterRef where
  index : Nat
  deriving DecidableEq, Repr

/-- The registration of one source, with its counter. -/
structure Subscription where
  source : SourceId
  counter : CounterRef
  deriving DecidableEq, Repr

/-- Answer to a query about a source. -/
structure LinkInfo where
  enabled : Bool
  changes : UInt64
  deriving DecidableEq, Repr

def LinkInfo.reply (i : LinkInfo) : Json :=
  Json.ofMembers [("enabled", .bool i.enabled), ("lsc_counter", Json.ofNat i.changes.toNat)]

/-- All counters ever created, in order, and the counter of each subscribed source. -/
structure LinkCounts where
  counts : Array UInt64
  subscribed : Std.TreeMap SourceId CounterRef

namespace LinkCounts

def empty : LinkCounts := ⟨#[], ∅⟩

/-- Number held by a counter. -/
def count (c : LinkCounts) (counter : CounterRef) : UInt64 := c.counts.getD counter.index 0

def isSubscribed (c : LinkCounts) (source : SourceId) : Bool := c.subscribed.contains source

/-- Subscribes `source` with a fresh counter, unless it is subscribed already. -/
def subscribe (source : SourceId) (c : LinkCounts) :
    Except LinkStateError Subscription × LinkCounts :=
  if c.isSubscribed source then (.error (.alreadySubscribed source), c)
  else
    let counter : CounterRef := ⟨c.counts.size⟩
    (.ok ⟨source, counter⟩, ⟨c.counts.push 0, c.subscribed.insert source counter⟩)

/-- Subscribes several sources in order, up to the first that is subscribed already. -/
def subscribeAll (sources : List SourceId) (c : LinkCounts) :
    Except LinkStateError (List Subscription) × LinkCounts :=
  match sources with
  | [] => (.ok [], c)
  | source :: rest =>
    match c.subscribe source with
    | (.error e, c) => (.error e, c)
    | (.ok subscription, c) =>
      let (subscriptions, c) := subscribeAll rest c
      (subscriptions.map (subscription :: ·), c)

/-- Records one event; only a change of the status is counted. -/
def record (s : Subscription) (event : LinkEvent) (c : LinkCounts) : LinkCounts :=
  match event with
  | .statusChange => { c with counts := c.counts.modify s.counter.index (· + 1) }
  | .reset | .removed => c

/-- Ends a subscription; one that came later for the same source stays. -/
def unsubscribe (s : Subscription) (c : LinkCounts) : LinkCounts :=
  if c.subscribed[s.source]? = some s.counter then
    { c with subscribed := c.subscribed.erase s.source }
  else c

def query (c : LinkCounts) (source : SourceId) : Except LinkStateError LinkInfo :=
  match c.subscribed[source]? with
  | some counter => .ok ⟨true, c.count counter⟩
  | none => .error (.notSubscribed source)

/-- Subscribed sources, in order. -/
def sources (c : LinkCounts) : List SourceId := c.subscribed.keys

def size (c : LinkCounts) : Nat := c.subscribed.size

def isEmpty (c : LinkCounts) : Bool := c.subscribed.isEmpty

end LinkCounts

end BurstRing
