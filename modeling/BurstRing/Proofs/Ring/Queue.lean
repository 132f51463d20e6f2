import BurstRing.Proofs.Ring.Alone
import BurstRing.Proofs.Ring.Bytes

/-!
# A ring as a bounded queue of records

Calls made one after another on a ring are answered as by a `RecordQueue`, a list of records that
knows how many of what width it may hold (`Ring.answers_as_queue`).  The queue has no cursors, no
slots and no modes: a call that is not refused appends a prefix of its records or removes a prefix
of the list, as long as `Behavior.share` says.  A handle is the record of its eight bytes, least
significant first, so handles and bytes may be stored and fetched in any mixture.

`Ring.Represents` ties a ring to its queue, and one lemma for each kind of call says that it is
kept and that the answers agree.
-/

namespace BurstRing

/-- One call.  A bulk or burst call is one whose transfer is `Transfer.bulk` or `Transfer.burst`;
any transfer may also force a mode on its side. -/
inductive RingCall where
  | enqueue (handles : Array UInt64) (t : Transfer)
  | dequeue (out : Array UInt64) (t : Transfer)
  | enqueueElements (objects : Array UInt8) (elementSize : Nat) (t : Transfer)
  | dequeueElements (out : Array UInt8) (elementSize : Nat) (t : Transfer)
  | enqueueOne (handle : UInt64)
  | dequeueOne
  | count
  | freeCount
  | isFull
  | isEmpty
  deriving Repr

/-- What a call gives back, with the buffer it was given to fill. -/
inductive RingAnswer where
  | stored (outcome : Except TransferFault Nat)
  | handles (outcome : Except TransferFault Nat) (out : Array UInt64)
  | elements (outcome : Except TransferFault Nat) (out : Array UInt8)
  | accepted (outcome : Except TransferFault Bool)
  | handle (outcome : Except TransferFault (Option UInt64))
  | number (n : Nat)
  | truth (b : Bool)
  deriving DecidableEq, Repr

/-- The length of a buffer is a 64-bit word. -/
def RingCall.Fits : RingCall → Prop
  | .enqueue handles _ => handles.size < UInt64.size
  | .dequeue out _ => out.size < UInt64.size
  | .enqueueElements objects _ _ => objects.size < UInt64.size
  | .dequeueElements out _ _ => out.size < UInt64.size
  | _ => True

instance RingCall.decidableFits : (call : RingCall) → Decidable call.Fits
  | .enqueue handles _ => inferInstanceAs (Decidable (handles.size < UInt64.size))
  | .dequeue out _ => inferInstanceAs (Decidable (out.size < UInt64.size))
  | .enqueueElements objects _ _ => inferInstanceAs (Decidable (objects.size < UInt64.size))
  | .dequeueElements out _ _ => inferInstanceAs (Decidable (out.size < UInt64.size))
  | .enqueueOne _ | .dequeueOne | .count | .freeCount | .isFull | .isEmpty => .isTrue trivial

/-- The fault of a transfer, if it has one. -/
def TransferFault.of? {α : Type} : Except TransferFault α → Option TransferFault
  | .error fault => some fault
  | .ok _ => none

@[simp] theorem TransferFault.of?_map {α β : Type} (f : α → β) (outcome : Except TransferFault α) :
    of? (outcome.map f) = of? outcome := by
  cases outcome <;> rfl

/-- What kept a call from its answer. -/
def RingAnswer.fault? : RingAnswer → Option TransferFault
  | .stored outcome => TransferFault.of? outcome
  | .handles outcome _ => TransferFault.of? outcome
  | .elements outcome _ => TransferFault.of? outcome
  | .accepted outcome => TransferFault.of? outcome
  | .handle outcome => TransferFault.of? outcome
  | .number _ | .truth _ => none

/-- Makes a call. -/
def Ring.answer (r : Ring) : RingCall → RingAnswer × Ring
  | .enqueue handles t =>
    let (outcome, r) := r.enqueue handles t
    (.stored outcome, r)
  | .dequeue out t =>
    let (outcome, out, r) := r.dequeue out t
    (.handles outcome out, r)
  | .enqueueElements objects elementSize t =>
    let (outcome, r) := r.enqueueElements objects elementSize t
    (.stored outcome, r)
  | .dequeueElements out elementSize t =>
    let (outcome, out, r) := r.dequeueElements out elementSize t
    (.elements outcome out, r)
  | .enqueueOne handle =>
    let (outcome, r) := r.enqueueOne handle
    (.accepted outcome, r)
  | .dequeueOne =>
    let (outcome, r) := r.dequeueOne
    (.handle outcome, r)
  | .count => (.number r.count, r)
  | .freeCount => (.number r.freeCount, r)
  | .isFull => (.truth r.isFull, r)
  | .isEmpty => (.truth r.isEmpty, r)

/-- Makes calls one after another. -/
def Ring.answers : Ring → List RingCall → List RingAnswer
  | _, [] => []
  | r, call :: calls =>
    let (answer, r) := r.answer call
    answer :: r.answers calls

/-! ### The queue -/

/-- At most `capacity` records of `width` bytes, oldest first. -/
structure RecordQueue where
  capacity : Nat
  width : Nat
  records : List (List UInt8)
  deriving DecidableEq, Repr

namespace RecordQueue

def empty (capacity width : Nat) : RecordQueue := ⟨capacity, width, []⟩

def free (q : RecordQueue) : Nat := q.capacity - q.records.length

/-- Why a request for elements of `elementSize` bytes, `len` bytes in all, is refused. -/
def refusal? (q : RecordQueue) (elementSize len : Nat) : Option RingError :=
  if elementSize ≠ q.width then some (.elementSizeMismatch q.width elementSize)
  else if len = 0 then some .emptyRequest
  else if len % elementSize ≠ 0 then some (.misalignedBuffer len elementSize)
  else none

/-- Appends as many of `records` as the behaviour allows, and tells their number. -/
def store (q : RecordQueue) (elementSize : Nat) (records : List (List UInt8))
    (behavior : Behavior) (len : Nat) : Except TransferFault Nat × RecordQueue :=
  match q.refusal? elementSize len with
  | some cause => (.error (.refused cause), q)
  | none =>
    let n := behavior.share records.length q.free
    (.ok n, { q with records := q.records ++ records.take n })

/-- Removes as many of the oldest records as the behaviour allows. -/
def fetch (q : RecordQueue) (elementSize : Nat) (behavior : Behavior) (len : Nat) :
    Except TransferFault (List (List UInt8)) × RecordQueue :=
  match q.refusal? elementSize len with
  | some cause => (.error (.refused cause), q)
  | none =>
    let n := behavior.share (len / elementSize) q.records.length
    (.ok (q.records.take n), { q with records := q.records.drop n })

/-- What the queue answers to a call. -/
def answer (q : RecordQueue) : RingCall → RingAnswer × RecordQueue
  | .enqueue handles t =>
    let (outcome, q) := q.store handleSize (handles.toList.map Handle.record) t.behavior
      (handles.size * handleSize)
    (.stored outcome, q)
  | .dequeue out t =>
    let (outcome, q) := q.fetch handleSize t.behavior (out.size * handleSize)
    (.handles (outcome.map List.length)
      (overwrite ((outcome.toOption.getD []).map Handle.ofRecord) out), q)
  | .enqueueElements objects elementSize t =>
    let (outcome, q) := q.store elementSize (recordsOf elementSize objects) t.behavior objects.size
    (.stored outcome, q)
  | .dequeueElements out elementSize t =>
    let (outcome, q) := q.fetch elementSize t.behavior out.size
    (.elements (outcome.map List.length)
      (overwrite (outcome.toOption.getD []).flatten out), q)
  | .enqueueOne handle =>
    let (outcome, q) := q.store handleSize [Handle.record handle] .exactly handleSize
    (.accepted (outcome.map (· == 1)), q)
  | .dequeueOne =>
    let (outcome, q) := q.fetch handleSize .exactly handleSize
    (.handle (outcome.map fun records => records.head?.map Handle.ofRecord), q)
  | .count => (.number q.records.length, q)
  | .freeCount => (.number q.free, q)
  | .isFull => (.truth (q.records.length == q.capacity), q)
  | .isEmpty => (.truth q.records.isEmpty, q)

/-- What the queue answers to calls one after another. -/
def answers : RecordQueue → List RingCall → List RingAnswer
  | _, [] => []
  | q, call :: calls =>
    let (answer, q) := q.answer call
    answer :: q.answers calls

end RecordQueue

/-! ### Rings that represent queues -/

/-- The ring is at rest, has the queue's bounds and holds its records. -/
structure Ring.Represents (r : Ring) (q : RecordQueue) : Prop where
  capacity : r.shape.capacity = q.capacity
  width : r.shape.elementSize = q.width
  holds : r.Holds q.records

namespace RecordQueue

theorem refusal?_eq_none {q : RecordQueue} {elementSize len : Nat}
    (h : q.refusal? elementSize len = none) :
    elementSize = q.width ∧ len % elementSize = 0 := by
  rw [refusal?] at h
  split at h
  · cases h
  · rename_i hwidth
    split at h
    · cases h
    · split at h
      · cases h
      · rename_i hmod
        exact ⟨not_not.mp hwidth, not_not.mp hmod⟩

/-- A request for handles is refused by other queues, or if it asks for none. -/
theorem refusal?_handles {q : RecordQueue} (hwidth : q.width = handleSize) {n : Nat}
    (hn : n ≠ 0) : q.refusal? handleSize (n * handleSize) = none := by
  rw [refusal?, if_neg (not_not.mpr hwidth.symm), if_neg (Nat.mul_ne_zero hn (by decide)),
    if_neg (not_not.mpr (Nat.mul_mod_left n handleSize))]

theorem records_store {q : RecordQueue} {elementSize len n : Nat} {records : List (List UInt8)}
    {behavior : Behavior} (h : (q.store elementSize records behavior len).1 = .ok n) :
    (q.store elementSize records behavior len).2.records = q.records ++ records.take n := by
  rw [store] at h ⊢
  split at h
  · cases h
  · cases h
    rfl

end RecordQueue

namespace Ring

variable {r : Ring} {q : RecordQueue}

theorem Represents.initial (name : RingName) {shape : Shape} (h : shape.overflow = .wrapping)
    (producer consumer : SyncMode) :
    (ofShape name shape producer consumer).Represents
      (.empty shape.capacity shape.elementSize) where
  capacity := rfl
  width := rfl
  holds := .initial h 0

theorem Represents.length_record (h : r.Represents q) :
    ∀ record ∈ q.records, record.length = q.width := by
  intro record hmem
  obtain ⟨i, hi, rfl⟩ := List.mem_iff_getElem.mp hmem
  rw [← h.holds.record i hi, length_recordAt, h.width]

/-! ### Requests -/

theorem checkElements_eq (h : r.Represents q) (len elementSize : Nat) :
    checkElements r.shape len elementSize =
      match q.refusal? elementSize len with
      | some cause => .error cause
      | none => .ok (len / elementSize) := by
  rw [checkElements, RecordQueue.refusal?, h.width]
  split
  · rfl
  · split
    · rfl
    · split <;> rfl

theorem checkHandles_eq (h : r.Represents q) (len : Nat) :
    checkHandles r.shape len =
      match q.refusal? handleSize (len * handleSize) with
      | some cause => .error cause
      | none => .ok () := by
  have hmod : ¬ len * handleSize % handleSize ≠ 0 := not_not.mpr (Nat.mul_mod_left len handleSize)
  rw [checkHandles, RecordQueue.refusal?, h.width, if_neg hmod]
  by_cases hw : q.width = handleSize
  · rw [if_neg (not_not.mpr hw), if_neg (not_not.mpr hw.symm)]
    by_cases hlen : len = 0
    · rw [if_pos hlen, if_pos (by rw [hlen, Nat.zero_mul])]
    · rw [if_neg hlen, if_neg (Nat.mul_ne_zero hlen (by decide))]
  · rw [if_pos hw, if_pos (Ne.symm hw)]

/-! ### Transfers -/

/-- A transfer of the records of a buffer into a ring that represents `q`. -/
theorem Represents.perform_producer (h : r.Represents q) (behavior : Behavior) (access : Access)
    (records : List (List UInt8)) (buffer : Array UInt8) (hlen : records.length < UInt64.size)
    (hrecords : (List.range records.length).map (recordAt q.width buffer) = records) :
    let n := behavior.share records.length q.free
    ∃ r' : Ring, r.perform .producer behavior access records.length buffer = (.ok n, buffer, r') ∧
      r'.Represents { q with records := q.records ++ records.take n } := by
  intro n
  obtain ⟨r', hperform, hshape, hholds⟩ :=
    Ring.perform_producer h.holds behavior access hlen buffer
  have hfree : r.capacity - q.records.length = q.free := by rw [Ring.capacity, h.capacity]; rfl
  have htake : records.take n = (List.range n).map (recordAt r.elementSize buffer) := by
    have hle : n ≤ records.length := behavior.share_le_wanted _ _
    rw [Ring.elementSize, h.width, ← hrecords, ← List.map_take, List.take_range,
      Nat.min_eq_left hle]
  rw [hfree] at hperform hholds
  refine ⟨r', hperform, ?_, ?_, ?_⟩
  · rw [hshape, h.capacity]
  · rw [hshape, h.width]
  · rw [htake]
    exact hholds

/-- A transfer of `wanted` records out of a ring that represents `q`. -/
theorem Represents.perform_consumer (h : r.Represents q) (behavior : Behavior) (access : Access)
    {wanted : Nat} {target : Array UInt8} (hwanted : wanted < UInt64.size)
    (hsize : target.size = wanted * q.width) :
    let n := behavior.share wanted q.records.length
    ∃ r' : Ring, r.perform .consumer behavior access wanted target =
        (.ok n, overwrite (q.records.take n).flatten target, r') ∧
      r'.Represents { q with records := q.records.drop n } := by
  intro n
  obtain ⟨target', r', hperform, hshape, hsize', hin, hout, hholds⟩ :=
    Ring.perform_consumer h.holds behavior access hwanted target
      (by rw [Ring.elementSize, h.width, hsize])
  simp only [Ring.elementSize, h.width] at hin hout
  have hused : n ≤ q.records.length := behavior.share_le_room _ _
  have hle : n ≤ wanted := behavior.share_le_wanted _ _
  have hfront : (q.records.take n).length = n := by rw [List.length_take, Nat.min_eq_left hused]
  have hwidth : ∀ record ∈ q.records.take n, record.length = q.width := fun record hmem =>
    h.length_record record (List.mem_of_mem_take hmem)
  have hflat : (q.records.take n).flatten.length ≤ target.size := by
    rw [length_flatten_of_width hwidth, hfront, hsize]
    exact Nat.mul_le_mul_right _ hle
  have hpos : 0 < q.width := h.width ▸ r.shape.elementSize_pos'
  -- Both are whole records, and record by record they are fetched or left as they were.
  have htarget : target' = overwrite (q.records.take n).flatten target := by
    refine eq_of_recordAt_eq hpos (hsize'.trans hsize) ((size_overwrite hflat).trans hsize)
      fun i hi => ?_
    by_cases hlt : i < n
    · rw [hin i (hlt.trans_le hused) hlt, overwrite,
        recordAt_flatten _ hwidth (hfront.symm ▸ hlt), List.getElem_take]
    · rw [hout i (Nat.not_lt.mp hlt), recordAt_overwrite hwidth (hfront.symm ▸ Nat.not_lt.mp hlt)]
      rw [hsize]
      exact Nat.mul_le_mul_right _ hi
  rw [htarget] at hperform
  exact ⟨r', hperform, ⟨hshape ▸ h.capacity, hshape ▸ h.width, hholds⟩⟩

theorem Represents.putElements (h : r.Represents q) (access : Access) (behavior : Behavior)
    (objects : Array UInt8) (hfits : objects.size < UInt64.size) (elementSize : Nat) :
    let expected := q.store elementSize (recordsOf elementSize objects) behavior objects.size
    (r.putElements access behavior objects elementSize).1 = expected.1 ∧
      (r.putElements access behavior objects elementSize).2.Represents expected.2 := by
  simp only [Ring.putElements, RecordQueue.store, checkElements_eq h]
  cases hq : q.refusal? elementSize objects.size with
  | some cause => exact ⟨rfl, h⟩
  | none =>
      obtain ⟨rfl, -⟩ := RecordQueue.refusal?_eq_none hq
      have hlen : (recordsOf q.width objects).length = objects.size / q.width := by
        rw [recordsOf, List.length_map, List.length_range]
      obtain ⟨r', hperform, hr'⟩ := h.perform_producer behavior access
        (recordsOf q.width objects) objects (hlen ▸ (Nat.div_le_self _ _).trans_lt hfits)
        (by rw [hlen, recordsOf])
      rw [hlen] at hperform
      simp only [hperform, hlen]
      rw [hlen] at hr'
      exact ⟨trivial, hr'⟩

theorem Represents.getElements (h : r.Represents q) (access : Access) (behavior : Behavior)
    (out : Array UInt8) (hfits : out.size < UInt64.size) (elementSize : Nat) :
    let expected := q.fetch elementSize behavior out.size
    (r.getElements access behavior out elementSize).1 = expected.1.map List.length ∧
      (r.getElements access behavior out elementSize).2.1 =
        overwrite (expected.1.toOption.getD []).flatten out ∧
      (r.getElements access behavior out elementSize).2.2.Represents expected.2 := by
  simp only [Ring.getElements, RecordQueue.fetch, checkElements_eq h]
  cases hq : q.refusal? elementSize out.size with
  | some cause => exact ⟨rfl, rfl, h⟩
  | none =>
      obtain ⟨rfl, hmod⟩ := RecordQueue.refusal?_eq_none hq
      obtain ⟨r', hperform, hr'⟩ := h.perform_consumer behavior access
        ((Nat.div_le_self out.size q.width).trans_lt hfits)
        (Nat.div_mul_cancel (Nat.dvd_of_mod_eq_zero hmod)).symm
      simp only [hperform]
      refine ⟨?_, rfl, hr'⟩
      rw [Except.map, List.length_take, Nat.min_eq_left (behavior.share_le_room _ _)]

theorem Represents.putHandles (h : r.Represents q) (access : Access) (behavior : Behavior)
    (handles : Array UInt64) (hfits : handles.size < UInt64.size) :
    let expected := q.store handleSize (handles.toList.map Handle.record) behavior
      (handles.size * handleSize)
    (r.putHandles access behavior handles).1 = expected.1 ∧
      (r.putHandles access behavior handles).2.Represents expected.2 := by
  simp only [Ring.putHandles, RecordQueue.store, checkHandles_eq h]
  cases hq : q.refusal? handleSize (handles.size * handleSize) with
  | some cause => exact ⟨rfl, h⟩
  | none =>
      have hwidth := (RecordQueue.refusal?_eq_none hq).1
      have hlen : (handles.toList.map Handle.record).length = handles.size := by
        rw [List.length_map, Array.length_toList]
      have hrecords : (List.range (handles.toList.map Handle.record).length).map
          (recordAt q.width (Handle.pack handles)) = handles.toList.map Handle.record := by
        refine List.ext_getElem (by rw [List.length_map, List.length_range]) fun i hi hi' => ?_
        rw [List.getElem_map, List.getElem_range, List.getElem_map, ← hwidth,
          Handle.recordAt_pack handles (hlen ▸ hi'), Array.getElem_toList]
      obtain ⟨r', hperform, hr'⟩ := h.perform_producer behavior access
        (handles.toList.map Handle.record) (Handle.pack handles) (hlen ▸ hfits) hrecords
      rw [hlen] at hperform hr'
      simp only [hperform, hlen]
      exact ⟨trivial, hr'⟩

theorem Represents.getHandles (h : r.Represents q) (access : Access) (behavior : Behavior)
    (out : Array UInt64) (hfits : out.size < UInt64.size) :
    let expected := q.fetch handleSize behavior (out.size * handleSize)
    (r.getHandles access behavior out).1 = expected.1.map List.length ∧
      (r.getHandles access behavior out).2.1 =
        overwrite ((expected.1.toOption.getD []).map Handle.ofRecord) out ∧
      (r.getHandles access behavior out).2.2.Represents expected.2 := by
  simp only [Ring.getHandles, RecordQueue.fetch, checkHandles_eq h]
  cases hq : q.refusal? handleSize (out.size * handleSize) with
  | some cause => exact ⟨rfl, rfl, h⟩
  | none =>
      have hwidth := (RecordQueue.refusal?_eq_none hq).1
      obtain ⟨r', hperform, hr'⟩ := h.perform_consumer behavior access hfits
        (by rw [Handle.size_pack, hwidth])
      have hwanted : out.size * handleSize / handleSize = out.size :=
        Nat.mul_div_cancel _ (by decide)
      have hfront : (q.records.take (behavior.share out.size q.records.length)).length =
          behavior.share out.size q.records.length := by
        rw [List.length_take, Nat.min_eq_left (behavior.share_le_room _ _)]
      simp only [hperform, hwanted]
      refine ⟨?_, ?_, hr'⟩
      · rw [Except.map, hfront]
      · refine Handle.unpack_overwrite (fun record hmem => ?_) ?_
        · rw [h.length_record record (List.mem_of_mem_take hmem), hwidth]
        · rw [hfront]
          exact behavior.share_le_wanted _ _

/-! ### Single handles -/

theorem Represents.enqueueOne (h : r.Represents q) (handle : UInt64) :
    let expected := q.store handleSize [Handle.record handle] .exactly handleSize
    (r.enqueueOne handle).1 = expected.1.map (· == 1) ∧
      (r.enqueueOne handle).2.Represents expected.2 := by
  have hput := h.putHandles (r.sharedAccess .producer .bulk) .exactly #[handle]
    (show 1 < UInt64.size by decide)
  exact ⟨congrArg (Except.map (· == 1)) hput.1, hput.2⟩

theorem RecordQueue.fetch_one {records : List (List UInt8)}
    (h : (q.fetch handleSize .exactly handleSize).1 = .ok records) : records.length ≤ 1 := by
  rw [RecordQueue.fetch] at h
  split at h
  · cases h
  · cases h
    rw [List.length_take]
    exact (Nat.min_le_left _ _).trans (Behavior.share_le_wanted _ _ _)

theorem Represents.dequeueOne (h : r.Represents q) :
    let expected := q.fetch handleSize .exactly handleSize
    r.dequeueOne.1 = expected.1.map (fun records => records.head?.map Handle.ofRecord) ∧
      r.dequeueOne.2.Represents expected.2 := by
  obtain ⟨houtcome, hout, hr'⟩ := h.getHandles (r.sharedAccess .consumer .bulk) .exactly #[0]
    (show 1 < UInt64.size by decide)
  refine ⟨?_, hr'⟩
  -- Only lists of no or one record are left to look at.
  have hone : ∀ records, (q.fetch handleSize .exactly handleSize).1 = .ok records →
      records.length ≤ 1 := fun records => RecordQueue.fetch_one
  have hsize : (#[0] : Array UInt64).size * handleSize = handleSize := rfl
  simp only [Ring.dequeueOne, Ring.dequeue, Transfer.bulk, hsize] at houtcome hout ⊢
  rw [houtcome, hout]
  generalize (q.fetch handleSize .exactly handleSize).1 = outcome at hone ⊢
  match outcome with
  | .error fault => rfl
  | .ok [] => rfl
  | .ok [record] => rfl
  | .ok (_ :: _ :: _) => exact absurd (hone _ rfl) (by simp)

/-! ### Queries -/

theorem Represents.count_eq (h : r.Represents q) : r.count = q.records.length := by
  rw [Ring.count, RingState.count, h.holds.producer_rest, h.holds.consumer_rest, h.holds.filled]
  exact Nat.min_eq_left h.holds.length_le

theorem Represents.freeCount_eq (h : r.Represents q) : r.freeCount = q.free := by
  rw [Ring.freeCount, h.count_eq, Ring.capacity, h.capacity]
  rfl

theorem Represents.isFull_eq (h : r.Represents q) :
    r.isFull = (q.records.length == q.capacity) := by
  have hle := h.holds.length_le
  rw [h.capacity] at hle
  rw [Ring.isFull, h.freeCount_eq, RecordQueue.free, Bool.eq_iff_iff, beq_iff_eq, beq_iff_eq]
  omega

theorem Represents.isEmpty_eq (h : r.Represents q) : r.isEmpty = q.records.isEmpty := by
  rw [Ring.isEmpty, h.count_eq, Bool.eq_iff_iff, beq_iff_eq, List.isEmpty_iff,
    List.length_eq_zero_iff]

/-! ### Calls one after another -/

/-- One call: the ring answers as its queue, and goes on representing it. -/
theorem Represents.answer_eq (h : r.Represents q) {call : RingCall} (hfits : call.Fits) :
    (r.answer call).1 = (q.answer call).1 ∧ (r.answer call).2.Represents (q.answer call).2 := by
  cases call with
  | enqueue handles t =>
      obtain ⟨houtcome, hr'⟩ := h.putHandles (r.sharedAccess .producer t) t.behavior handles hfits
      exact ⟨congrArg RingAnswer.stored houtcome, hr'⟩
  | dequeue out t =>
      obtain ⟨houtcome, hout, hr'⟩ :=
        h.getHandles (r.sharedAccess .consumer t) t.behavior out hfits
      exact ⟨congrArg₂ RingAnswer.handles houtcome hout, hr'⟩
  | enqueueElements objects elementSize t =>
      obtain ⟨houtcome, hr'⟩ :=
        h.putElements (r.sharedAccess .producer t) t.behavior objects hfits elementSize
      exact ⟨congrArg RingAnswer.stored houtcome, hr'⟩
  | dequeueElements out elementSize t =>
      obtain ⟨houtcome, hout, hr'⟩ :=
        h.getElements (r.sharedAccess .consumer t) t.behavior out hfits elementSize
      exact ⟨congrArg₂ RingAnswer.elements houtcome hout, hr'⟩
  | enqueueOne handle =>
      obtain ⟨houtcome, hr'⟩ := h.enqueueOne handle
      exact ⟨congrArg RingAnswer.accepted houtcome, hr'⟩
  | dequeueOne =>
      obtain ⟨houtcome, hr'⟩ := h.dequeueOne
      exact ⟨congrArg RingAnswer.handle houtcome, hr'⟩
  | count => exact ⟨congrArg RingAnswer.number h.count_eq, h⟩
  | freeCount => exact ⟨congrArg RingAnswer.number h.freeCount_eq, h⟩
  | isFull => exact ⟨congrArg RingAnswer.truth h.isFull_eq, h⟩
  | isEmpty => exact ⟨congrArg RingAnswer.truth h.isEmpty_eq, h⟩

theorem Represents.answers_eq {calls : List RingCall} (hfits : ∀ call ∈ calls, call.Fits) :
    ∀ {r : Ring} {q : RecordQueue}, r.Represents q → r.answers calls = q.answers calls := by
  induction calls with
  | nil => intro r q _; rfl
  | cons call calls ih =>
      intro r q h
      obtain ⟨hanswer, hr'⟩ := h.answer_eq (hfits call List.mem_cons_self)
      rw [Ring.answers, RecordQueue.answers]
      exact congrArg₂ List.cons hanswer
        (ih (fun c hc => hfits c (List.mem_cons_of_mem _ hc)) hr')

end Ring

/-! ### Faults -/

namespace RecordQueue

theorem fault_store {q : RecordQueue} {elementSize len : Nat} {records : List (List UInt8)}
    {behavior : Behavior} {fault : TransferFault}
    (h : TransferFault.of? (q.store elementSize records behavior len).1 = some fault) :
    ∃ cause, fault = .refused cause := by
  rw [store] at h
  split at h
  · rename_i cause _
    exact ⟨cause, (Option.some.inj h).symm⟩
  · cases h

theorem fault_fetch {q : RecordQueue} {elementSize len : Nat} {behavior : Behavior}
    {fault : TransferFault}
    (h : TransferFault.of? (q.fetch elementSize behavior len).1 = some fault) :
    ∃ cause, fault = .refused cause := by
  rw [fetch] at h
  split at h
  · rename_i cause _
    exact ⟨cause, (Option.some.inj h).symm⟩
  · cases h

/-- A queue finds fault with requests only. -/
theorem fault_answer {q : RecordQueue} {call : RingCall} {fault : TransferFault}
    (h : (q.answer call).1.fault? = some fault) : ∃ cause, fault = .refused cause := by
  cases call with
  | enqueue handles t => exact fault_store h
  | enqueueElements objects elementSize t => exact fault_store h
  | dequeue out t =>
      rw [answer, RingAnswer.fault?, TransferFault.of?_map] at h
      exact fault_fetch h
  | dequeueElements out elementSize t =>
      rw [answer, RingAnswer.fault?, TransferFault.of?_map] at h
      exact fault_fetch h
  | enqueueOne handle =>
      rw [answer, RingAnswer.fault?, TransferFault.of?_map] at h
      exact fault_store h
  | dequeueOne =>
      rw [answer, RingAnswer.fault?, TransferFault.of?_map] at h
      exact fault_fetch h
  | count | freeCount | isFull | isEmpty => cases h

theorem fault_answers {calls : List RingCall} :
    ∀ {q : RecordQueue}, ∀ answer ∈ q.answers calls, ∀ fault,
      answer.fault? = some fault → ∃ cause, fault = .refused cause := by
  induction calls with
  | nil => nofun
  | cons call calls ih =>
      intro q answer hmem fault h
      rcases List.mem_cons.mp hmem with rfl | hmem
      · exact fault_answer h
      · exact ih answer hmem fault h

end RecordQueue

namespace Ring

theorem create_eq_ok {memory : Memory} {name : RingName} {capacity elementSize : UInt64}
    {producer consumer : SyncMode} {r : Ring}
    (h : create memory name capacity elementSize producer consumer = .ok r) :
    ∃ shape : Shape, shape.capacity = capacity.toNat ∧ shape.elementSize = elementSize.toNat ∧
      shape.overflow = .wrapping ∧ r = ofShape name shape producer consumer := by
  rw [create, Shape.ofWords] at h
  split at h
  · split at h
    · split at h
      · dsimp only [bind, Except.bind] at h
        split at h
        · cases h
          exact ⟨_, rfl, rfl, rfl, rfl⟩
        · cases h
      · cases h
    · cases h
  · cases h

/-- **Refinement to a queue.**  On every ring that is created, calls made one after another are
answered as by a queue of as many records of the same width, whatever modes the ring has and the
calls force; and no call is kept from its answer except by a refusal of its request. -/
theorem answers_as_queue (memory : Memory) (name : RingName) (capacity elementSize : UInt64)
    (producer consumer : SyncMode) {r : Ring}
    (hcreate : create memory name capacity elementSize producer consumer = .ok r)
    {calls : List RingCall} (hfits : ∀ call ∈ calls, call.Fits) :
    r.answers calls = (RecordQueue.empty capacity.toNat elementSize.toNat).answers calls ∧
      ∀ answer ∈ r.answers calls, ∀ fault, answer.fault? = some fault →
        ∃ cause, fault = .refused cause := by
  obtain ⟨shape, hcapacity, hwidth, hbuild, rfl⟩ := create_eq_ok hcreate
  have h := (Represents.initial name hbuild producer consumer).answers_eq hfits
  rw [hcapacity, hwidth] at h
  exact ⟨h, h ▸ RecordQueue.fault_answers⟩

/-- Handles and bytes through two slots, over the end of the storage. -/
def mixedCalls : List RingCall :=
  [.enqueueOne 7, .enqueueElements (Array.range 16 |>.map Nat.toUInt8) 8 .bulk,
    .enqueueElements (Array.range 16 |>.map Nat.toUInt8) 8 (Transfer.burst.withSync .multi),
    .isFull, .dequeueElements (Array.replicate 8 9) 8 .bulk, .enqueue #[513] .burst, .enqueueOne 1,
    .dequeue #[5, 5, 5] (Transfer.burst.withSync .single), .dequeueOne, .dequeue #[] .bulk,
    .enqueueElements #[1, 2, 3] 4 .bulk, .enqueueElements #[1, 2, 3] 8 .burst, .count]

theorem answers_as_queue_mixedCalls :
    ∃ r, create (.below 100) ⟨"mixed", by decide⟩ 2 8 .single .multi = .ok r ∧
      r.answers mixedCalls =
        [.accepted (.ok true), .stored (.ok 0), .stored (.ok 1), .truth true,
          .elements (.ok 1) #[7, 0, 0, 0, 0, 0, 0, 0], .stored (.ok 1), .accepted (.ok false),
          .handles (.ok 2) #[0x0706050403020100, 513, 5], .handle (.ok none),
          .handles (.error (.refused .emptyRequest)) #[],
          .stored (.error (.refused (.elementSizeMismatch 8 4))),
          .stored (.error (.refused (.misalignedBuffer 3 8))), .number 0] :=
  ⟨_, rfl, (answers_as_queue (.below 100) _ 2 8 .single .multi rfl (by decide +kernel)).1.trans
    (by decide +kernel)⟩

end Ring

end BurstRing
