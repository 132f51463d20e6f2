import BurstRing.Config.Basic
import BurstRing.Ring.Basic
import Std.Data.TreeMap

/-!
# The registry of rings

Rings are created under a name and live for as long as somebody holds a reference to them.  The
registry itself holds none: it remembers which ring a name was last given to, and a name whose ring
is no longer held counts as free.  Such a leftover stays until the name is created again, freed or
pruned.

A reference is a number that is never given out twice, so two rings that bore one name at different
times are told apart for good.
-/

namespace BurstRing

/-- Which of all rings ever created. -/
structure RingRef where
  index : Nat
  deriving DecidableEq, Repr

/-- A ring, and how many references keep it. -/
structure HeldRing where
  ring : Ring
  holders : Nat

/-- Somebody holds the ring. -/
def HeldRing.isLive (h : HeldRing) : Bool := h.holders != 0

/-- All rings ever created, in order, and the ring each name was last given to. -/
structure Registry where
  rings : Array HeldRing
  names : Std.TreeMap String RingRef

namespace Registry

def empty : Registry := ⟨#[], ∅⟩

/-! ### References -/

/-- Somebody holds the ring behind `ref`. -/
def isLive (g : Registry) (ref : RingRef) : Bool := g.rings[ref.index]?.any HeldRing.isLive

/-- The ring behind `ref`, while somebody holds it. -/
def ring? (g : Registry) (ref : RingRef) : Option Ring :=
  (g.rings[ref.index]?.filter HeldRing.isLive).map HeldRing.ring

/-- Another reference to a ring that is held already. -/
def retain (ref : RingRef) (g : Registry) : Registry :=
  { g with rings := g.rings.modify ref.index fun h =>
      if h.isLive then { h with holders := h.holders + 1 } else h }

/-- One reference less. -/
def release (ref : RingRef) (g : Registry) : Registry :=
  { g with rings := g.rings.modify ref.index fun h => { h with holders := h.holders - 1 } }

/-- Does `f` to the ring behind `ref`. -/
def update {α : Type} (ref : RingRef) (f : Ring → α × Ring) (g : Registry) :
    Option α × Registry :=
  match g.ring? ref with
  | none => (none, g)
  | some ring =>
    let (a, ring) := f ring
    (some a, { g with rings := g.rings.modify ref.index fun h => { h with ring } })

/-! ### Names -/

/-- The live ring called `name`. -/
def find? (g : Registry) (name : String) : Option RingRef := g.names[name]?.filter g.isLive

/-- Creates a ring and registers it, unless a live ring has its name; whoever asked for it holds
it.  Nothing changes if that fails. -/
def create (memory : Memory) (name : RingName) (capacity elementSize : UInt64)
    (producer consumer : SyncMode) (g : Registry) : Except Failure RingRef × Registry :=
  match g.find? name.text with
  | some _ => (.error (.registry (.alreadyExists name.text)), g)
  | none =>
    match Ring.create memory name capacity elementSize producer consumer with
    | .error e => (.error (.ring e), g)
    | .ok ring =>
      let ref : RingRef := ⟨g.rings.size⟩
      (.ok ref, ⟨g.rings.push ⟨ring, 1⟩, g.names.insert name.text ref⟩)

/-- Creates the ring that `config` describes. -/
def createFromConfig (memory : Memory) (config : RingConfig) (g : Registry) :
    Except Failure RingRef × Registry :=
  g.create memory config.name config.capacity config.elementSize config.producer
    config.consumer

/-- Creates the rings that `configs` describe, in order, up to the first failure; whoever asked
for them holds each of them. -/
def createAll (memory : Memory) (configs : List RingConfig) (g : Registry) :
    Except Failure (List RingRef) × Registry :=
  match configs with
  | [] => (.ok [], g)
  | config :: rest =>
    match g.createFromConfig memory config with
    | (.error e, g) => (.error e, g)
    | (.ok ref, g) =>
      let (refs, g) := createAll memory rest g
      (refs.map (ref :: ·), g)

/-- The live ring called `name`, which the caller holds from now on. -/
def lookup (name : String) (g : Registry) : Option RingRef × Registry :=
  match g.find? name with
  | none => (none, g)
  | some ref => (some ref, g.retain ref)

/-- What diagnostics say about the live ring called `name`. -/
def info (g : Registry) (name : String) : Except RegistryError RingInfo :=
  match (g.find? name).bind g.ring? with
  | some ring => .ok ring.info
  | none => .error (.notFound name)

/-- Names of the live rings, in order. -/
def list (g : Registry) : List String :=
  (g.names.toList.filter fun entry => g.isLive entry.2).map (·.1)

/-- Number of live rings that are registered. -/
def size (g : Registry) : Nat := g.list.length

def isEmpty (g : Registry) : Bool := g.size == 0

/-- Forgets `name`.  It is an error if no live ring had it, though a leftover is gone then too. -/
def free (name : String) (g : Registry) : Except RegistryError Unit × Registry :=
  let outcome := if (g.find? name).isSome then .ok () else .error (.notFound name)
  (outcome, { g with names := g.names.erase name })

/-- Forgets all leftovers, and tells how many there were. -/
def prune (g : Registry) : Nat × Registry :=
  let names := g.names.filter fun _ ref => g.isLive ref
  (g.names.size - names.size, { g with names })

end Registry

end BurstRing
