import BurstRing.Proofs.Ring.Queue

/-!
# The handles in a ring

A ring of handles at rest `Has` a list of them, oldest first.  What is enqueued comes last, as much
of it as fits, and a dequeue brings the first ones; neither fails, as long as something is asked
for.  `Ring.contents` finds the list.
-/

namespace BurstRing

namespace RecordQueue

/-- No call changes the bounds of the queue. -/
theorem answer_bounds (q : RecordQueue) (call : RingCall) :
    ∃ records, (q.answer call).2 = { q with records } := by
  have hstore : ∀ elementSize records behavior len, ∃ records',
      (q.store elementSize records behavior len).2 = { q with records := records' } := by
    intro elementSize records behavior len
    rw [store]
    split <;> exact ⟨_, rfl⟩
  have hfetch : ∀ elementSize behavior len, ∃ records',
      (q.fetch elementSize behavior len).2 = { q with records := records' } := by
    intro elementSize behavior len
    rw [fetch]
    split <;> exact ⟨_, rfl⟩
  cases call with
  | enqueue | enqueueElements | enqueueOne => exact hstore ..
  | dequeue | dequeueElements | dequeueOne => exact hfetch ..
  | count | freeCount | isFull | isEmpty => exact ⟨_, rfl⟩

end RecordQueue

theorem toList_extract_overwrite {α : Type} (front : List α) (out : Array α) :
    ((overwrite front out).extract 0 front.length).toList = front := by
  simp [overwrite]

namespace Ring

/-- The ring after calls made one after another. -/
def after (r : Ring) (calls : List RingCall) : Ring :=
  calls.foldl (fun r call => (r.answer call).2) r

/-- Handles in the ring, oldest first: what a dequeue of all of them would bring. -/
def contents (r : Ring) : List UInt64 :=
  (r.dequeue (Array.replicate r.count 0) .burst).2.1.toList

theorem Represents.after {calls : List RingCall} (hfits : ∀ call ∈ calls, call.Fits) :
    ∀ {r : Ring} {q : RecordQueue}, r.Represents q →
      ∃ records, (r.after calls).Represents { q with records } := by
  induction calls with
  | nil => intro r q h; exact ⟨q.records, h⟩
  | cons call calls ih =>
      intro r q h
      obtain ⟨-, hnext⟩ := h.answer_eq (hfits call List.mem_cons_self)
      obtain ⟨records, hrecords⟩ := q.answer_bounds call
      rw [hrecords] at hnext
      obtain ⟨records', hlast⟩ := ih (fun c hc => hfits c (List.mem_cons_of_mem _ hc)) hnext
      exact ⟨records', hlast⟩

/-- Into a buffer for some handles a dequeue of a ring of handles at rest brings the oldest ones. -/
theorem Represents.dequeue_burst {ring : Ring} {q : RecordQueue} (hq : ring.Represents q)
    (hwidth : q.width = handleSize) {out : Array UInt64} (hsome : out.size ≠ 0)
    (hfits : out.size < UInt64.size) :
    let n := min out.size q.records.length
    (ring.dequeue out .burst).1 = .ok n ∧
      (ring.dequeue out .burst).2.1 = overwrite ((q.records.take n).map Handle.ofRecord) out ∧
      (ring.dequeue out .burst).2.2.Represents { q with records := q.records.drop n } := by
  intro n
  have hget := hq.getHandles (ring.sharedAccess .consumer .burst) .atMost out hfits
  rw [RecordQueue.fetch, RecordQueue.refusal?_handles hwidth hsome,
    Nat.mul_div_cancel _ (show 0 < handleSize by decide)] at hget
  obtain ⟨houtcome, hout, hring⟩ := hget
  refine ⟨houtcome.trans ?_, hout, hring⟩
  rw [Except.map, List.length_take, Nat.min_eq_left (Behavior.share_le_room _ _ _)]
  rfl

/-- None fails. -/
theorem Represents.dequeue_ok {ring : Ring} {q : RecordQueue} (hq : ring.Represents q)
    (hwidth : q.width = handleSize) {out : Array UInt64} (hsome : out.size ≠ 0)
    (hfits : out.size < UInt64.size) :
    ∃ n ≤ q.records.length, n ≤ out.size ∧ (ring.dequeue out .burst).1 = .ok n ∧
      (ring.dequeue out .burst).2.1.size = out.size ∧
      (ring.dequeue out .burst).2.2.Represents { q with records := q.records.drop n } := by
  obtain ⟨houtcome, hout, hring⟩ := hq.dequeue_burst hwidth hsome hfits
  have hn := Nat.min_le_left out.size q.records.length
  have hlen := Nat.min_le_right out.size q.records.length
  refine ⟨_, hlen, hn, houtcome, (congrArg Array.size hout).trans (size_overwrite ?_), hring⟩
  rw [List.length_map, List.length_take, Nat.min_eq_left hlen]
  exact hn

/-- A ring of handles at rest. -/
def Has (r : Ring) (handles : List UInt64) : Prop :=
  ∃ capacity, r.Represents ⟨capacity, handleSize, handles.map Handle.record⟩

variable {r : Ring} {handles : List UInt64}

/-- Records as wide as handles are handles. -/
theorem Represents.has {q : RecordQueue} (h : r.Represents q) (hwidth : q.width = handleSize) :
    r.Has (q.records.map Handle.ofRecord) := by
  have hrecords : (q.records.map Handle.ofRecord).map Handle.record = q.records := by
    rw [List.map_map]
    refine (List.map_congr_left fun record hmem => ?_).trans (List.map_id q.records)
    exact Handle.record_ofRecord ((h.length_record record hmem).trans hwidth)
  obtain ⟨capacity, width, records⟩ := q
  cases hwidth
  exact ⟨capacity, hrecords.symm ▸ h⟩

theorem Has.elementSize_eq (h : r.Has handles) : r.elementSize = handleSize := by
  obtain ⟨capacity, hr⟩ := h
  exact hr.width

theorem Has.count_eq (h : r.Has handles) : r.count = handles.length := by
  obtain ⟨capacity, hr⟩ := h
  rw [hr.count_eq, List.length_map]

theorem Has.isEmpty_iff (h : r.Has handles) : r.isEmpty = true ↔ handles = [] := by
  rw [isEmpty, h.count_eq, beq_iff_eq, List.length_eq_zero_iff]

/-- A ring created for handles is empty. -/
theorem has_nil {memory : Memory} {name : RingName} {capacity : UInt64}
    {producer consumer : SyncMode}
    (hcreate : withHandles memory name capacity producer consumer = .ok r) : r.Has [] := by
  obtain ⟨shape, -, hwidth, hbuild, rfl⟩ := create_eq_ok hcreate
  have hr := Represents.initial name hbuild producer consumer
  rw [hwidth] at hr
  exact ⟨shape.capacity, hr⟩

/-- In whatever way it has been used, it holds handles. -/
theorem has_after {memory : Memory} {name : RingName} {capacity : UInt64}
    {producer consumer : SyncMode}
    (hcreate : withHandles memory name capacity producer consumer = .ok r)
    {calls : List RingCall} (hfits : ∀ call ∈ calls, call.Fits) :
    ∃ handles, (r.after calls).Has handles := by
  obtain ⟨slots, hr⟩ := has_nil hcreate
  obtain ⟨records, hafter⟩ := hr.after hfits
  exact ⟨_, hafter.has rfl⟩

theorem has_nil_after {memory : Memory} {name : RingName} {capacity : UInt64}
    {producer consumer : SyncMode}
    (hcreate : withHandles memory name capacity producer consumer = .ok r)
    {calls : List RingCall} (hfits : ∀ call ∈ calls, call.Fits)
    (hempty : (r.after calls).isEmpty = true) : (r.after calls).Has [] := by
  obtain ⟨handles, h⟩ := has_after hcreate hfits
  rw [h.isEmpty_iff.mp hempty] at h
  exact h

theorem Has.length_lt (h : r.Has handles) : handles.length < UInt64.size := by
  obtain ⟨capacity, hr⟩ := h
  have hle := hr.holds.length_le
  have hmax := r.shape.capacity_le
  rw [List.length_map] at hle
  exact (hle.trans hmax).trans_lt (by decide)

/-- A burst appends a prefix of its handles. -/
theorem Has.enqueue (h : r.Has handles) {new : Array UInt64} (hsome : new.size ≠ 0)
    (hfits : new.size < UInt64.size) :
    ∃ n ≤ new.size, ∃ r', r.enqueue new .burst = (.ok n, r') ∧
      r'.Has (handles ++ new.toList.take n) := by
  obtain ⟨capacity, hr⟩ := h
  obtain ⟨houtcome, hring⟩ :=
    hr.putHandles (r.sharedAccess .producer .burst) .atMost new hfits
  rw [RecordQueue.store, RecordQueue.refusal?_handles rfl hsome] at houtcome hring
  refine ⟨_, ?_, _, Prod.ext houtcome rfl, capacity, ?_⟩
  · refine (Behavior.share_le_wanted _ _ _).trans_eq ?_
    rw [List.length_map, Array.length_toList]
  · rw [List.map_append, List.map_take]
    exact hring

/-- A burst brings the oldest handles, and the others stay. -/
theorem Has.dequeue (h : r.Has handles) {n : Nat} (hsome : n ≠ 0) (hfits : n < UInt64.size) :
    ∃ r', r.dequeue (Array.replicate n 0) .burst = (.ok (handles.take n).length,
        overwrite (handles.take n) (Array.replicate n 0), r') ∧ r'.Has (handles.drop n) := by
  obtain ⟨capacity, hr⟩ := h
  have hsize : (Array.replicate n (0 : UInt64)).size = n := Array.size_replicate
  obtain ⟨houtcome, hout, hring⟩ := hr.dequeue_burst rfl (hsize.trans_ne hsome)
    (hsize.trans_lt hfits)
  simp only [hsize, List.length_map] at houtcome hout hring
  have hfront : ((handles.map Handle.record).take (min n handles.length)).map Handle.ofRecord =
      handles.take n := by
    rw [List.map_take, List.map_map]
    simp [Function.comp_def]
  rw [hfront] at hout
  rw [← List.length_take] at houtcome
  rw [← List.map_drop, ← List.drop_eq_drop_min] at hring
  exact ⟨_, Prod.ext houtcome (Prod.ext hout rfl), capacity, hring⟩

theorem toList_dequeue_nil (r : Ring) (t : Transfer) : (r.dequeue #[] t).2.1.toList = [] := by
  by_cases hsize : r.shape.elementSize = handleSize
  · simp [dequeue, getHandles, checkHandles, hsize]
  · simp [dequeue, getHandles, checkHandles, hsize]

theorem Has.contents_eq (h : r.Has handles) : r.contents = handles := by
  by_cases hnone : handles.length = 0
  · rw [contents, h.count_eq, hnone, List.length_eq_zero_iff.mp hnone]
    exact toList_dequeue_nil r .burst
  · obtain ⟨r', hdequeue, -⟩ := h.dequeue hnone h.length_lt
    rw [contents, h.count_eq, hdequeue]
    simp [overwrite]

end Ring

end BurstRing
