import BurstRing.Name
import BurstRing.Ring.Call
import BurstRing.Ring.Handle

/-!
# Rings

A ring has a name, a shape and a mode for each side.  Its elements are read and written as records
of bytes, or as handles where a record is as wide as a handle.  A transfer here is a `Call` that
takes all its steps with nobody beside it.

A transfer first checks its request: the width of an element, then that something is asked for,
then that the buffer holds whole elements.
-/

namespace BurstRing

/-- A bounded ring of records. -/
structure Ring where
  name : RingName
  shape : Shape
  producerMode : SyncMode
  consumerMode : SyncMode
  state : RingState

/-- Why a transfer gave no count. -/
inductive TransferFault where
  /-- The request was refused. -/
  | refused (cause : RingError)
  /-- The program broke off. -/
  | panicked (panic : Panic)
  /-- An earlier claim on the side has not been published. -/
  | stalled
  deriving DecidableEq, Repr

/-- What diagnostics say about a ring. -/
structure RingInfo where
  name : String
  isSingleProducer : Bool
  isSingleConsumer : Bool
  producerTag : String
  consumerTag : String
  configuredSize : Nat
  currentCount : Nat
  usableCapacity : Nat
  elementSize : Nat
  deriving DecidableEq, Repr

namespace Ring

/-- A ring of `shape` without elements. -/
def ofShape (name : RingName) (shape : Shape) (producer consumer : SyncMode) : Ring :=
  ⟨name, shape, producer, consumer, .startingAt 0⟩

/-- Checks the shape, then reserves its bytes. -/
def create (memory : Memory) (name : RingName) (capacity elementSize : UInt64)
    (producer consumer : SyncMode) : Except RingError Ring := do
  let shape ← Shape.ofWords capacity elementSize
  if memory.grants shape.bytes then .ok (ofShape name shape producer consumer)
  else .error (.outOfMemory shape.bytes)

/-- A ring whose records are handles. -/
def withHandles (memory : Memory) (name : RingName) (capacity : UInt64)
    (producer consumer : SyncMode) : Except RingError Ring :=
  create memory name capacity handleSize.toUInt64 producer consumer

/-! ### Queries -/

def capacity (r : Ring) : Nat := r.shape.capacity

def elementSize (r : Ring) : Nat := r.shape.elementSize

def mode (r : Ring) : Side → SyncMode
  | .producer => r.producerMode
  | .consumer => r.consumerMode

/-- Published elements not yet released. -/
def count (r : Ring) : Nat :=
  RingState.count r.shape r.state.consumer.tail r.state.producer.tail

def freeCount (r : Ring) : Nat := r.capacity - r.count

def isFull (r : Ring) : Bool := r.freeCount == 0

def isEmpty (r : Ring) : Bool := r.count == 0

def info (r : Ring) : RingInfo where
  name := r.name.text
  isSingleProducer := r.producerMode.isSingle
  isSingleConsumer := r.consumerMode.isSingle
  producerTag := r.producerMode.tag
  consumerTag := r.consumerMode.tag
  configuredSize := r.capacity
  currentCount := r.count
  usableCapacity := r.capacity
  elementSize := r.elementSize

def debug (r : Ring) : String :=
  Text.record "RingBuffer"
    [("name", r.name.debug), ("capacity", toString r.capacity),
      ("element_size", toString r.elementSize), ("producer_mode", r.producerMode.debug),
      ("consumer_mode", r.consumerMode.debug), ("count", toString r.count)]

/-! ### Requests -/

/-- A request for `len` handles. -/
def checkHandles (shape : Shape) (len : Nat) : Except RingError Unit :=
  if shape.elementSize ≠ handleSize then
    .error (.elementSizeMismatch shape.elementSize handleSize)
  else if len = 0 then .error .emptyRequest
  else .ok ()

/-- A request for elements of `elementSize` bytes, in a buffer of `len` bytes: their number. -/
def checkElements (shape : Shape) (len elementSize : Nat) : Except RingError Nat :=
  if elementSize ≠ shape.elementSize then
    .error (.elementSizeMismatch shape.elementSize elementSize)
  else if len = 0 then .error .emptyRequest
  else if len % elementSize ≠ 0 then .error (.misalignedBuffer len elementSize)
  else .ok (len / elementSize)

/-! ### Transfers -/

/-- Lets a call for `wanted` elements run alone: how it ended, its buffer, and the ring. -/
def perform (r : Ring) (side : Side) (behavior : Behavior) (access : Access) (wanted : Nat)
    (buffer : Array UInt8) : Except TransferFault Nat × Array UInt8 × Ring :=
  match r with
  | ⟨name, shape, producer, consumer, state⟩ =>
    let call := Call.begin side behavior access wanted.toUInt64 buffer
    let (state, call) := call.runAlone shape call.steps state
    let ring : Ring := ⟨name, shape, producer, consumer, state⟩
    match call with
    | ⟨_, _, _, _, buffer, .done claim⟩ =>
      (.ok ((claim.map fun c => c.len.toNat).getD 0), buffer, ring)
    | ⟨_, _, _, _, buffer, .broken panic _⟩ => (.error (.panicked panic), buffer, ring)
    | ⟨_, _, _, _, buffer, _⟩ => (.error .stalled, buffer, ring)

/-- The access of a shared transfer. -/
def sharedAccess (r : Ring) (side : Side) (t : Transfer) : Access :=
  .shared (t.resolve (r.mode side))

/-- Stores elements from `objects`. -/
def putElements (r : Ring) (access : Access) (behavior : Behavior) (objects : Array UInt8)
    (elementSize : Nat) : Except TransferFault Nat × Ring :=
  match checkElements r.shape objects.size elementSize with
  | .error e => (.error (.refused e), r)
  | .ok n =>
    let (outcome, _, r) := r.perform .producer behavior access n objects
    (outcome, r)

/-- Fetches elements into `out`. -/
def getElements (r : Ring) (access : Access) (behavior : Behavior) (out : Array UInt8)
    (elementSize : Nat) : Except TransferFault Nat × Array UInt8 × Ring :=
  match checkElements r.shape out.size elementSize with
  | .error e => (.error (.refused e), out, r)
  | .ok n => r.perform .consumer behavior access n out

/-- Stores `handles`. -/
def putHandles (r : Ring) (access : Access) (behavior : Behavior) (handles : Array UInt64) :
    Except TransferFault Nat × Ring :=
  match checkHandles r.shape handles.size with
  | .error e => (.error (.refused e), r)
  | .ok () =>
    let (outcome, _, r) :=
      r.perform .producer behavior access handles.size (Handle.pack handles)
    (outcome, r)

/-- Fetches handles into `out`. -/
def getHandles (r : Ring) (access : Access) (behavior : Behavior) (out : Array UInt64) :
    Except TransferFault Nat × Array UInt64 × Ring :=
  match checkHandles r.shape out.size with
  | .error e => (.error (.refused e), out, r)
  | .ok () =>
    let n := out.size
    let (outcome, buffer, r) := r.perform .consumer behavior access n (Handle.pack out)
    (outcome, Handle.unpack buffer n, r)

/-- Enqueues handles beside other callers. -/
def enqueue (r : Ring) (handles : Array UInt64) (t : Transfer) :
    Except TransferFault Nat × Ring :=
  r.putHandles (r.sharedAccess .producer t) t.behavior handles

/-- Dequeues handles beside other callers. -/
def dequeue (r : Ring) (out : Array UInt64) (t : Transfer) :
    Except TransferFault Nat × Array UInt64 × Ring :=
  r.getHandles (r.sharedAccess .consumer t) t.behavior out

/-- Enqueues records beside other callers. -/
def enqueueElements (r : Ring) (objects : Array UInt8) (elementSize : Nat) (t : Transfer) :
    Except TransferFault Nat × Ring :=
  r.putElements (r.sharedAccess .producer t) t.behavior objects elementSize

/-- Dequeues records beside other callers. -/
def dequeueElements (r : Ring) (out : Array UInt8) (elementSize : Nat) (t : Transfer) :
    Except TransferFault Nat × Array UInt8 × Ring :=
  r.getElements (r.sharedAccess .consumer t) t.behavior out elementSize

/-- Enqueues one handle; false if the ring is full. -/
def enqueueOne (r : Ring) (handle : UInt64) : Except TransferFault Bool × Ring :=
  let (outcome, r) := r.enqueue #[handle] .bulk
  (outcome.map (· == 1), r)

/-- Dequeues one handle, if there is one. -/
def dequeueOne (r : Ring) : Except TransferFault (Option UInt64) × Ring :=
  let (outcome, out, r) := r.dequeue #[0] .bulk
  (outcome.map fun n => if n = 1 then out[0]? else none, r)

end Ring

end BurstRing
