import BurstRing.Proofs.Ring.Overrun

/-!
# A ring started elsewhere

Cursors are words that wrap, and a ring looks at the distances between them, at the slots that they
name, and else only at the lengths of claims.  So, unless the build checks for overflow, an empty
ring whose four cursors stand at `s` does what an empty ring does whose cursors stand at zero, also
where its cursors, or a single claim, run over `2 ^ 64`; only its slots are turned, by `s` modulo the
capacity.

`Ring.Turned` is this relation between two rings.  Where the first is at rest the second is too
(`Ring.Turned.holds`), and a transfer of either gives the same count and the same bytes and leaves
the rings in the relation (`Ring.Turned.perform`): both claim the same share of the same room, and
the copies go to slots that correspond (`RingState.Turned.store`) or come from them
(`RingState.Turned.fetch`).  The rest follows call by call, for rings (`Ring.Turned.answer`) and for
the endpoints of split rings (`Ring.Turned.endpoints`).

All this is about rings at rest, so about builds that do not check.  In one that does, two rings
still answer alike as long as the one that is further on can take all that their calls put in
(`Ring.Staggered.answersAlike`), and the first call for which that is too much breaks off there
(`Ring.Staggered.breaksOff`).  The main statement is `Ring.started_anywhere`.
-/

namespace BurstRing

/-! ### Words -/

/-- A distance does not change if both ends are moved alike. -/
theorem add_sub_add_word (a b s : UInt64) : (a + s) - (b + s) = a - b := by grind

/-! ### States -/

/-- Both cursors moved on by `s`. -/
def Cursors.turn (s : UInt64) (k : Cursors) : Cursors := ⟨k.head + s, k.tail + s⟩

/-- All cursors of `y` are `s` further on than those of `x`, and the record that `x` has in the
slot of a position, `y` has in the slot of the position that is `s` further on. -/
structure RingState.Turned (shape : Shape) (s : UInt64) (x y : RingState) : Prop where
  producer : y.producer = x.producer.turn s
  consumer : y.consumer = x.consumer.turn s
  record : ∀ i, recordAt shape.elementSize y.storage.bytes ((i + s.toNat) % shape.capacity) =
    recordAt shape.elementSize x.storage.bytes (i % shape.capacity)

namespace RingState.Turned

variable {shape : Shape} {s : UInt64} {x y : RingState} {q : List (List UInt8)}

theorem startingAt (shape : Shape) (s : UInt64) :
    Turned shape s (.startingAt 0) (.startingAt s) where
  producer := by simp [RingState.startingAt, Cursors.startingAt, Cursors.turn]
  consumer := by simp [RingState.startingAt, Cursors.startingAt, Cursors.turn]
  record _ := rfl

/-- The record of a position that is counted from a cursor. -/
theorem record_from (h : Turned shape s x y) (p : UInt64) (i : Nat) :
    recordAt shape.elementSize y.storage.bytes (((p + s).toNat + i) % shape.capacity) =
      recordAt shape.elementSize x.storage.bytes ((p.toNat + i) % shape.capacity) := by
  rw [shape.mod_add_word, ← h.record, Nat.add_assoc, Nat.add_comm i]

theorem claimable_eq (h : Turned shape s x y) (side : Side) :
    y.claimable shape side = x.claimable shape side := by
  cases side <;> simp only [claimable, h.producer, h.consumer, Cursors.turn, add_sub_add_word]

theorem count_eq (h : Turned shape s x y) :
    RingState.count shape y.consumer.tail y.producer.tail =
      RingState.count shape x.consumer.tail x.producer.tail := by
  simp only [RingState.count, h.producer, h.consumer, Cursors.turn, add_sub_add_word]

/-- What is held where the one ring stands is held where the other stands. -/
theorem holds (h : Turned shape s x y) (hx : x.Holds shape q) : y.Holds shape q where
  unchecked := hx.unchecked
  producer_rest := by rw [h.producer]; exact congrArg (· + s) hx.producer_rest
  consumer_rest := by rw [h.consumer]; exact congrArg (· + s) hx.consumer_rest
  length_le := hx.length_le
  filled := by
    rw [h.producer, h.consumer]
    exact (congrArg UInt64.toNat (add_sub_add_word ..)).trans hx.filled
  record i hi := by
    rw [h.consumer]
    exact (h.record_from _ i).trans (hx.record i hi)

/-- Two positions share a slot wherever the ring stands. -/
theorem slot_eq_iff (shape : Shape) (s p : UInt64) (i j : Nat) :
    (j + s.toNat) % shape.capacity = ((p + s).toNat + i) % shape.capacity ↔
      j % shape.capacity = (p.toNat + i) % shape.capacity := by
  have hslot : ((p + s).toNat + i) % shape.capacity =
      (p.toNat + i + s.toNat) % shape.capacity := by
    rw [shape.mod_add_word, Nat.add_assoc, Nat.add_comm i]
  rw [hslot]
  exact ⟨Nat.ModEq.add_right_cancel' s.toNat, fun h => Nat.ModEq.add_right s.toNat h⟩

/-- The same records stored after the producers' heads. -/
theorem store (h : Turned shape s x y) {k : UInt64} {buffer : Array UInt8} {u v : Storage}
    (huin : ∀ i < k.toNat, recordAt shape.elementSize u.bytes
      ((x.producer.head.toNat + i) % shape.capacity) = recordAt shape.elementSize buffer i)
    (huout : ∀ j, (∀ i < k.toNat, j ≠ (x.producer.head.toNat + i) % shape.capacity) →
      recordAt shape.elementSize u.bytes j = recordAt shape.elementSize x.storage.bytes j)
    (hvin : ∀ i < k.toNat, recordAt shape.elementSize v.bytes
      ((y.producer.head.toNat + i) % shape.capacity) = recordAt shape.elementSize buffer i)
    (hvout : ∀ j, (∀ i < k.toNat, j ≠ (y.producer.head.toNat + i) % shape.capacity) →
      recordAt shape.elementSize v.bytes j = recordAt shape.elementSize y.storage.bytes j) :
    Turned shape s ⟨⟨x.producer.head + k, x.producer.head + k⟩, x.consumer, u⟩
      ⟨⟨y.producer.head + k, y.producer.head + k⟩, y.consumer, v⟩ where
  producer := by
    have hhead : x.producer.head + s + k = x.producer.head + k + s := by grind
    simp only [h.producer, Cursors.turn, hhead]
  consumer := h.consumer
  record j := by
    rw [h.producer] at hvin hvout
    simp only [Cursors.turn] at hvin hvout
    by_cases hwritten : ∃ i < k.toNat, j % shape.capacity =
        (x.producer.head.toNat + i) % shape.capacity
    · obtain ⟨i, hi, hslot⟩ := hwritten
      rw [(slot_eq_iff shape s x.producer.head i j).mpr hslot, hslot]
      exact (hvin i hi).trans (huin i hi).symm
    · have hkept : ∀ i < k.toNat,
          j % shape.capacity ≠ (x.producer.head.toNat + i) % shape.capacity :=
        fun i hi hslot => hwritten ⟨i, hi, hslot⟩
      calc recordAt shape.elementSize v.bytes ((j + s.toNat) % shape.capacity)
          = recordAt shape.elementSize y.storage.bytes ((j + s.toNat) % shape.capacity) :=
            hvout _ fun i hi hslot => hkept i hi ((slot_eq_iff shape s _ i j).mp hslot)
        _ = recordAt shape.elementSize x.storage.bytes (j % shape.capacity) := h.record j
        _ = recordAt shape.elementSize u.bytes (j % shape.capacity) := (huout _ hkept).symm

/-- The same records fetched from the consumers' heads on, over the same buffer. -/
theorem fetch (h : Turned shape s x y) {k : UInt64} {target u v : Array UInt8}
    (husize : u.size = target.size) (hvsize : v.size = target.size)
    (huin : ∀ i < k.toNat, recordAt shape.elementSize u i = recordAt shape.elementSize
      x.storage.bytes ((x.consumer.head.toNat + i) % shape.capacity))
    (huout : ∀ j, k.toNat ≤ j →
      recordAt shape.elementSize u j = recordAt shape.elementSize target j)
    (hvin : ∀ i < k.toNat, recordAt shape.elementSize v i = recordAt shape.elementSize
      y.storage.bytes ((y.consumer.head.toNat + i) % shape.capacity))
    (hvout : ∀ j, k.toNat ≤ j →
      recordAt shape.elementSize v j = recordAt shape.elementSize target j) :
    v = u ∧ Turned shape s ⟨x.producer, ⟨x.consumer.head + k, x.consumer.head + k⟩, x.storage⟩
      ⟨y.producer, ⟨y.consumer.head + k, y.consumer.head + k⟩, y.storage⟩ := by
  refine ⟨?_, h.producer, ?_, h.record⟩
  · refine eq_of_forall_recordAt_eq shape.elementSize_pos' (hvsize.trans husize.symm) fun i => ?_
    rcases Nat.lt_or_ge i k.toNat with hi | hi
    · rw [huin i hi, hvin i hi, h.consumer]
      exact h.record_from _ i
    · rw [huout i hi, hvout i hi]
  · have hhead : x.consumer.head + s + k = x.consumer.head + k + s := by grind
    simp only [h.consumer, Cursors.turn, hhead]

end RingState.Turned

/-! ### Interfaces -/

/-- Endpoints do what the ring does when no mode is forced. -/
theorem Endpoints.run_eq_runSplit {e : Endpoints} {q : List (List UInt8)} (h : e.ring.Holds q)
    (calls : List SplitCall) :
    let shared := calls.map fun call => (call, (none : Option SyncMode))
    (e.run calls).1 = (e.ring.runSplit shared).1 ∧
      (e.run calls).2.ring = (e.ring.runSplit shared).2 := by
  intro shared
  have hcalls : shared.map Prod.fst = calls := by
    rw [List.map_map]
    exact List.map_id calls
  have hrun := Endpoints.run_eq shared h
  rwa [hcalls] at hrun

namespace Ring

/-! ### Rings -/

/-- The ring `b` is the ring `a`, with all cursors `s` further on and the slots turned as much. -/
def Turned (s : UInt64) (a b : Ring) : Prop :=
  ∃ state, b = { a with state } ∧ RingState.Turned a.shape s a.state state

/-- A ring of `shape` without elements, with its four cursors at `s`. -/
def emptyAt (s : UInt64) (name : RingName) (shape : Shape) (producer consumer : SyncMode) : Ring :=
  ⟨name, shape, producer, consumer, .startingAt s⟩

theorem turned_emptyAt (s : UInt64) (name : RingName) (shape : Shape)
    (producer consumer : SyncMode) :
    (emptyAt 0 name shape producer consumer).Turned s (emptyAt s name shape producer consumer) :=
  ⟨_, rfl, .startingAt shape s⟩

namespace Turned

variable {s : UInt64} {a b : Ring} {q : List (List UInt8)}

theorem holds (h : a.Turned s b) (ha : a.Holds q) : b.Holds q := by
  obtain ⟨state, rfl, hstate⟩ := h
  exact hstate.holds ha

theorem shape_eq (h : a.Turned s b) : b.shape = a.shape := by
  obtain ⟨state, rfl, -⟩ := h
  rfl

theorem sharedAccess_eq (h : a.Turned s b) (side : Side) (t : Transfer) :
    b.sharedAccess side t = a.sharedAccess side t := by
  obtain ⟨state, rfl, -⟩ := h
  rfl

/-! ### Queries -/

theorem count_eq (h : a.Turned s b) : b.count = a.count := by
  obtain ⟨state, rfl, hstate⟩ := h
  exact hstate.count_eq

theorem freeCount_eq (h : a.Turned s b) : b.freeCount = a.freeCount := by
  rw [freeCount, freeCount, h.count_eq, capacity, capacity, h.shape_eq]

theorem isFull_eq (h : a.Turned s b) : b.isFull = a.isFull := by
  rw [isFull, isFull, h.freeCount_eq]

theorem isEmpty_eq (h : a.Turned s b) : b.isEmpty = a.isEmpty := by
  rw [isEmpty, isEmpty, h.count_eq]

theorem info_eq (h : a.Turned s b) : b.info = a.info := by
  have hcount := h.count_eq
  obtain ⟨state, rfl, -⟩ := h
  simp only [info, hcount, capacity, elementSize]

theorem debug_eq (h : a.Turned s b) : b.debug = a.debug := by
  have hcount := h.count_eq
  obtain ⟨state, rfl, -⟩ := h
  simp only [debug, hcount, capacity, elementSize]

/-! ### Transfers -/

/-- A transfer moves the same records at both places. -/
theorem perform (h : a.Turned s b) (ha : a.Holds q) (side : Side) (behavior : Behavior)
    (access : Access) (wanted : Nat) (buffer : Array UInt8)
    (hsize : wanted * a.elementSize ≤ buffer.size) :
    ∃ n out a' b', a.perform side behavior access wanted buffer = (.ok n, out, a') ∧
      b.perform side behavior access wanted buffer = (.ok n, out, b') ∧ a'.Turned s b' := by
  have hb := h.holds ha
  obtain ⟨state, rfl, hstate⟩ := h
  cases side with
  | producer =>
      obtain ⟨k, u, hperform, hk, huin, huout, -⟩ :=
        perform_store (ha.ready .producer) behavior access wanted buffer
      obtain ⟨k', v, hperform', hk', hvin, hvout, -⟩ :=
        perform_store (hb.ready .producer) behavior access wanted buffer
      obtain rfl : k' = k := by
        rw [← UInt64.toNat_inj, hk, hk', hstate.claimable_eq]
      exact ⟨_, _, _, _, hperform, hperform', _, rfl, hstate.store huin huout hvin hvout⟩
  | consumer =>
      have hword : wanted.toUInt64.toNat * a.elementSize ≤ buffer.size :=
        (Nat.mul_le_mul_right _ (Nat.mod_le _ _)).trans hsize
      obtain ⟨k, u, hperform, hk, husize, huin, huout, -⟩ :=
        perform_fetch (ha.ready .consumer) behavior access wanted buffer hword
      obtain ⟨k', v, hperform', hk', hvsize, hvin, hvout, -⟩ :=
        perform_fetch (hb.ready .consumer) behavior access wanted buffer hword
      obtain rfl : k' = k := by
        rw [← UInt64.toNat_inj, hk, hk', hstate.claimable_eq]
      obtain ⟨rfl, hturned⟩ := hstate.fetch husize hvsize huin huout hvin hvout
      exact ⟨_, _, _, _, hperform, hperform', _, rfl, hturned⟩

theorem transferBytes (h : a.Turned s b) (ha : a.Holds q) (access : Access)
    (request : TransferRequest) :
    (b.transferBytes access request).1 = (a.transferBytes access request).1 ∧
      (b.transferBytes access request).2.1 = (a.transferBytes access request).2.1 ∧
      (a.transferBytes access request).2.2.Turned s (b.transferBytes access request).2.2 := by
  rw [Ring.transferBytes, Ring.transferBytes, h.shape_eq]
  cases hcheck : checkElements a.shape request.buffer.size request.width with
  | error e => exact ⟨rfl, rfl, h⟩
  | ok n =>
      obtain ⟨_, _, a', b', hx, hy, h'⟩ := h.perform ha request.side request.behavior access n
        request.buffer (checkElements_le hcheck)
      simp only [hx, hy]
      exact ⟨trivial, trivial, h'⟩

/-! ### Calls one after another -/

/-- One call: the rings answer alike, and go on alike. -/
theorem answer (h : a.Turned s b) (ha : a.Holds q) (call : RingCall) :
    (b.answer call).1 = (a.answer call).1 ∧ (a.answer call).2.Turned s (b.answer call).2 := by
  cases hrequest : call.request? with
  | some request =>
      rw [answer_eq_report hrequest, answer_eq_report hrequest, h.sharedAccess_eq]
      obtain ⟨houtcome, hbuffer, h'⟩ :=
        h.transferBytes ha (a.sharedAccess request.side call.transfer) request
      exact ⟨congrArg₂ call.report houtcome hbuffer, h'⟩
  | none =>
      cases call with
      | count => exact ⟨congrArg RingAnswer.number h.count_eq, h⟩
      | freeCount => exact ⟨congrArg RingAnswer.number h.freeCount_eq, h⟩
      | isFull => exact ⟨congrArg RingAnswer.truth h.isFull_eq, h⟩
      | isEmpty => exact ⟨congrArg RingAnswer.truth h.isEmpty_eq, h⟩
      | enqueue | dequeue | enqueueElements | dequeueElements | enqueueOne | dequeueOne =>
          cases hrequest

theorem answers (calls : List RingCall) :
    ∀ {a b : Ring} {q : List (List UInt8)}, a.Turned s b → a.Holds q →
      b.answers calls = a.answers calls ∧ (a.after calls).Turned s (b.after calls) := by
  induction calls with
  | nil => intro a b q h _; exact ⟨rfl, h⟩
  | cons call calls ih =>
      intro a b q h ha
      obtain ⟨hanswer, hnext⟩ := h.answer ha call
      obtain ⟨q', hq'⟩ := (ha.evolves_answer call).holds
      obtain ⟨hanswers, hlast⟩ := ih hnext hq'
      exact ⟨congrArg₂ List.cons hanswer hanswers, hlast⟩

/-! ### Split rings -/

theorem runSplit (calls : List (SplitCall × Option SyncMode)) :
    ∀ {a b : Ring} {q : List (List UInt8)}, a.Turned s b → a.Holds q →
      (b.runSplit calls).1 = (a.runSplit calls).1 ∧
        (a.runSplit calls).2.Turned s (b.runSplit calls).2 := by
  induction calls with
  | nil => intro a b q h _; exact ⟨rfl, h⟩
  | cons first calls ih =>
      obtain ⟨call, sync⟩ := first
      intro a b q h ha
      have hfirst : (b.answerSplit sync call).1 = (a.answerSplit sync call).1 ∧
          (a.answerSplit sync call).2.Turned s (b.answerSplit sync call).2 := by
        rw [answerSplit, answerSplit]
        split
        · obtain ⟨hanswer, hnext⟩ := h.answer ha _
          exact ⟨congrArg SplitAnswer.ring hanswer, hnext⟩
        · exact ⟨congrArg SplitAnswer.info h.info_eq, h⟩
      obtain ⟨q', hq'⟩ := (ha.evolves_answerSplit sync call).holds
      obtain ⟨hanswers, hlast⟩ := ih hfirst.2 hq'
      exact ⟨congrArg₂ List.cons hfirst.1 hanswers, hlast⟩

/-- Both rings can be split, or neither can and for the same reason. -/
theorem split (h : a.Turned s b) :
    (∃ cause, a.split = .error cause ∧ b.split = .error cause) ∨
      ∃ e e', a.split = .ok e ∧ b.split = .ok e' ∧ e.ring = a ∧ e'.ring = b := by
  obtain ⟨state, rfl, -⟩ := h
  by_cases hp : a.producerMode = .single
  · by_cases hc : a.consumerMode = .single
    · refine .inr ⟨⟨a, hp, hc⟩, ⟨{ a with state }, hp, hc⟩, ?_, ?_, rfl, rfl⟩
      · rw [Ring.split, dif_pos hp, dif_pos hc]
      · rw [Ring.split, dif_pos hp, dif_pos hc]
    · refine .inl ⟨.notSplittable a.name.text .consumer, ?_, ?_⟩
      · rw [Ring.split, dif_pos hp, dif_neg hc]
      · rw [Ring.split, dif_pos hp, dif_neg hc]
  · refine .inl ⟨.notSplittable a.name.text .producer, ?_, ?_⟩
    · rw [Ring.split, dif_neg hp]
    · rw [Ring.split, dif_neg hp]

/-- The endpoints of both rings answer alike, and leave the rings alike. -/
theorem endpoints {e e' : Endpoints} (h : e.ring.Turned s e'.ring) (he : e.ring.Holds q)
    (calls : List SplitCall) :
    (e'.run calls).1 = (e.run calls).1 ∧ (e.run calls).2.ring.Turned s (e'.run calls).2.ring := by
  obtain ⟨hanswers, hring⟩ := Endpoints.run_eq_runSplit he calls
  obtain ⟨hanswers', hring'⟩ := Endpoints.run_eq_runSplit (h.holds he) calls
  rw [hanswers, hanswers', hring, hring']
  exact runSplit _ h he

end Turned

end Ring

/-! ### Faults -/

namespace Ring

/-- On a side that is ready, a transfer is refused or counted. -/
theorem Contained.exists_refused {r r' : Ring} {request : TransferRequest}
    {outcome : Except TransferFault Nat} {buffer : Array UInt8} {fault : TransferFault}
    (h : r.Contained request outcome buffer r') (hfault : TransferFault.of? outcome = some fault) :
    ∃ cause, fault = .refused cause := by
  by_cases hwidth : request.width = r.elementSize
  · by_cases hempty : request.buffer.size = 0
    · rw [h.empty_iff.mpr ⟨hwidth, hempty⟩] at hfault
      exact ⟨_, (Option.some.inj hfault).symm⟩
    · by_cases hmod : request.buffer.size % request.width = 0
      · obtain ⟨n, hn⟩ := h.counted_iff.mpr ⟨hwidth, hempty, hmod⟩
        rw [hn] at hfault
        cases hfault
      · rw [h.misaligned_iff.mpr ⟨hwidth, hempty, hmod⟩] at hfault
        exact ⟨_, (Option.some.inj hfault).symm⟩
  · rw [h.mismatch_iff.mpr hwidth] at hfault
    exact ⟨_, (Option.some.inj hfault).symm⟩

namespace Holds

variable {r : Ring} {q : List (List UInt8)} {fault : TransferFault}

theorem fault_answer (h : r.Holds q) {call : RingCall}
    (hfault : (r.answer call).1.fault? = some fault) : ∃ cause, fault = .refused cause := by
  cases hrequest : call.request? with
  | some request =>
      rw [answer_eq_report hrequest, fault?_report] at hfault
      exact (contained_transferBytes request (h.ready _) _).exists_refused hfault
  | none =>
      cases call with
      | count | freeCount | isFull | isEmpty => cases hfault
      | enqueue | dequeue | enqueueElements | dequeueElements | enqueueOne | dequeueOne =>
          cases hrequest

theorem fault_answers (calls : List RingCall) :
    ∀ {r : Ring} {q : List (List UInt8)}, r.Holds q → ∀ answer ∈ r.answers calls, ∀ fault,
      answer.fault? = some fault → ∃ cause, fault = .refused cause := by
  induction calls with
  | nil => nofun
  | cons call calls ih =>
      intro r q h answer hmem fault hfault
      rcases List.mem_cons.mp hmem with rfl | hmem
      · exact h.fault_answer hfault
      · obtain ⟨q', hq'⟩ := (h.evolves_answer call).holds
        exact ih hq' answer hmem fault hfault

theorem fault_runSplit (calls : List (SplitCall × Option SyncMode)) :
    ∀ {r : Ring} {q : List (List UInt8)}, r.Holds q → ∀ answer ∈ (r.runSplit calls).1, ∀ fault,
      answer.fault? = some fault → ∃ cause, fault = .refused cause := by
  induction calls with
  | nil => nofun
  | cons first calls ih =>
      obtain ⟨call, sync⟩ := first
      intro r q h answer hmem fault hfault
      rcases List.mem_cons.mp hmem with rfl | hmem
      · change (r.answerSplit sync call).1.fault? = some fault at hfault
        rw [answerSplit] at hfault
        split at hfault
        · exact h.fault_answer hfault
        · cases hfault
      · obtain ⟨q', hq'⟩ := (h.evolves_answerSplit sync call).holds
        exact ih hq' answer hmem fault hfault

end Holds

end Ring

theorem Endpoints.fault_run {e : Endpoints} {q : List (List UInt8)} (h : e.ring.Holds q)
    (calls : List SplitCall) : ∀ answer ∈ (e.run calls).1, ∀ fault,
      answer.fault? = some fault → ∃ cause, fault = .refused cause := by
  rw [(run_eq_runSplit h calls).1]
  exact h.fault_runSplit _

namespace Ring

/-! ### Runs that are alike -/

theorem Turned.inBuild {s : UInt64} {a b : Ring} (overflow : Overflow) (h : a.Turned s b) :
    (a.inBuild overflow).Turned s (b.inBuild overflow) := by
  obtain ⟨state, rfl, hstate⟩ := h
  exact ⟨state, rfl, hstate.producer, hstate.consumer, hstate.record⟩

/-- The calls are answered alike, with the same bytes in the buffers, and nothing keeps them from
an answer but a refusal of the request; and the rings stay `s` apart. -/
structure AnswersAlike (s : UInt64) (home away : Ring) (calls : List RingCall) : Prop where
  answers_eq : away.answers calls = home.answers calls
  refused : ∀ answer ∈ home.answers calls, ∀ fault, answer.fault? = some fault →
    ∃ cause, fault = .refused cause
  turned : (home.after calls).Turned s (away.after calls)
  info_eq : (away.after calls).info = (home.after calls).info
  debug_eq : (away.after calls).debug = (home.after calls).debug

/-- The calls are answered alike up to one with which the ring `away` breaks off, because the length
of its claim runs over. -/
def BreaksOff (home away : Ring) (calls : List RingCall) : Prop :=
  ∃ before call rest, calls = before ++ call :: rest ∧
    away.answers before = home.answers before ∧
    ((away.after before).answer call).1.fault? = some (.panicked .subtraction)

end Ring

/-- The same of endpoints. -/
structure Endpoints.AnswersAlike (s : UInt64) (home away : Endpoints) (calls : List SplitCall) :
    Prop where
  answers_eq : (away.run calls).1 = (home.run calls).1
  refused : ∀ answer ∈ (home.run calls).1, ∀ fault, answer.fault? = some fault →
    ∃ cause, fault = .refused cause
  turned : (home.run calls).2.ring.Turned s (away.run calls).2.ring

def Endpoints.BreaksOff (home away : Endpoints) (calls : List SplitCall) : Prop :=
  ∃ before call rest, calls = before ++ call :: rest ∧
    (away.run before).1 = (home.run before).1 ∧
    ((away.run before).2.answer call).1.fault? = some (.panicked .subtraction)

namespace Ring

/-- Two rings of one build, the cursors of the second `s` further on: at rest, and in a build that
checks without a cursor that has run over. -/
structure Staggered (overflow : Overflow) (s : UInt64) (home away : Ring) : Prop where
  build : home.shape.overflow = overflow
  turned : home.Turned s away
  rest : ∃ q, (home.inBuild .wrapping).Holds q
  straight : overflow = .checked → home.Straight ∧ away.Straight ∧
    home.state.producer.head.toNat ≤ away.state.producer.head.toNat

namespace Staggered

variable {overflow : Overflow} {s : UInt64} {home away : Ring} {calls : List RingCall}

theorem emptyAt (s : UInt64) (name : RingName) (shape : Shape) (producer consumer : SyncMode) :
    Staggered shape.overflow s (ofShape name shape producer consumer)
      (emptyAt s name shape producer consumer) where
  build := rfl
  turned := turned_emptyAt s name shape producer consumer
  rest := ⟨[], .initial rfl 0⟩
  straight _ := ⟨Nat.le_refl _, Nat.le_refl _, Nat.zero_le _⟩

theorem build_away (h : Staggered overflow s home away) : away.shape.overflow = overflow :=
  h.turned.shape_eq ▸ h.build

/-- What the second ring can take, the first can take too. -/
theorem admits (h : Staggered overflow s home away) {n : Nat}
    (hlow : overflow = .checked → away.state.producer.head.toNat + n < 2 ^ 64) :
    home.Admits n ∧ away.Admits n := by
  constructor
  · intro hchecked
    have hbuild := h.build.symm.trans hchecked
    obtain ⟨hhome, -, hle⟩ := h.straight hbuild
    exact ⟨hhome, (Nat.add_le_add_right hle _).trans_lt (hlow hbuild)⟩
  · intro hchecked
    have hbuild := h.build_away.symm.trans hchecked
    exact ⟨(h.straight hbuild).2.1, hlow hbuild⟩

theorem entered_eq (h : Staggered overflow s home away) (calls : List RingCall) :
    away.entered calls = home.entered calls := by
  obtain ⟨q, hq⟩ := h.rest
  rw [entered, entered, (Turned.answers calls (h.turned.inBuild .wrapping) hq).1]

theorem answersAlike (h : Staggered overflow s home away)
    (hlow : overflow = .checked →
      away.state.producer.head.toNat + home.entered calls < 2 ^ 64) :
    home.AnswersAlike s away calls := by
  obtain ⟨q, hq⟩ := h.rest
  obtain ⟨hhome, haway⟩ := h.admits hlow
  rw [← h.entered_eq] at haway
  have hplain := h.turned.inBuild .wrapping
  obtain ⟨hanswers, hafter, -⟩ := answers_of_admits hq hhome
  obtain ⟨hanswers', hafter', -⟩ := answers_of_admits (hplain.holds hq) haway
  obtain ⟨halike, hlast⟩ := Turned.answers calls hplain hq
  have hturned : (home.after calls).Turned s (away.after calls) := by
    rw [hafter, hafter', h.turned.shape_eq]
    exact hlast.inBuild _
  refine ⟨?_, ?_, hturned, hturned.info_eq, hturned.debug_eq⟩
  · rw [hanswers, hanswers', halike]
  · rw [hanswers]
    exact Holds.fault_answers calls hq

/-- Calls that are answered alike leave the rings as far apart as they were. -/
theorem after (h : Staggered overflow s home away)
    (hlow : overflow = .checked →
      away.state.producer.head.toNat + home.entered calls < 2 ^ 64) :
    Staggered overflow s (home.after calls) (away.after calls) ∧
      (overflow = .checked → (away.after calls).state.producer.head.toNat =
        away.state.producer.head.toNat + home.entered calls) := by
  obtain ⟨q, hq⟩ := h.rest
  obtain ⟨hhome, haway⟩ := h.admits hlow
  rw [← h.entered_eq] at haway
  obtain ⟨-, hafter, hadvances⟩ := answers_of_admits hq hhome
  obtain ⟨-, -, hadvances'⟩ := answers_of_admits ((h.turned.inBuild .wrapping).holds hq) haway
  rw [h.build] at hadvances hafter
  rw [h.build_away, h.entered_eq] at hadvances'
  refine ⟨⟨?_, (h.answersAlike hlow).turned, ?_, fun hbuild => ?_⟩,
    fun hbuild => (hadvances' hbuild).head_eq⟩
  · rw [hafter]
    rfl
  · obtain ⟨q', hq'⟩ := (Holds.evolves_after calls hq).holds
    rw [hafter, inBuild_inBuild, inBuild_of_eq hq'.unchecked]
    exact ⟨q', hq'⟩
  · refine ⟨(hadvances hbuild).straight, (hadvances' hbuild).straight, ?_⟩
    rw [(hadvances hbuild).head_eq, (hadvances' hbuild).head_eq]
    exact Nat.add_le_add_right (h.straight hbuild).2.2 _

theorem breaksOff (h : Staggered overflow s home away) (hbuild : overflow = .checked)
    (hover : 2 ^ 64 ≤ away.state.producer.head.toNat + home.entered calls) :
    home.BreaksOff away calls := by
  obtain ⟨q, hq⟩ := h.rest
  have hplain := h.turned.inBuild .wrapping
  rw [← h.entered_eq] at hover
  rcases (hplain.holds hq).answers_cases calls (h.straight hbuild).2.1 with
    ⟨-, hadvances⟩ | ⟨-, before, call, rest, hsplit, hlt, halike, hpanics⟩
  · exact absurd hadvances.lt (Nat.not_lt.mpr hover)
  rw [inBuild_inBuild, inBuild_of_eq (h.build_away.trans hbuild)] at halike hpanics
  refine ⟨before, call, rest, hsplit, ?_, hpanics⟩
  obtain ⟨hhome, -⟩ := h.admits fun _ => h.entered_eq before ▸ hlt
  rw [halike, (answers_of_admits hq hhome).1, (Turned.answers before hplain hq).1]

end Staggered

end Ring

namespace Endpoints

variable {overflow : Overflow} {s : UInt64} {home away : Endpoints} {q : List (List UInt8)}
  {calls : List SplitCall}

/-- Where nothing is checked, the endpoints answer alike. -/
theorem run_unchecked (h : home.ring.Turned s away.ring)
    (hq : (home.ring.inBuild .wrapping).Holds q) (calls : List SplitCall) :
    ((away.inBuild .wrapping).run calls).1 = ((home.inBuild .wrapping).run calls).1 ∧
      ((home.inBuild .wrapping).run calls).2.ring.Turned s
        ((away.inBuild .wrapping).run calls).2.ring :=
  Ring.Turned.endpoints (h.inBuild .wrapping) hq calls

theorem entered_eq (h : Ring.Staggered overflow s home.ring away.ring) (calls : List SplitCall) :
    away.entered calls = home.entered calls := by
  obtain ⟨q, hq⟩ := h.rest
  rw [entered, entered, (run_unchecked h.turned hq calls).1]

theorem answersAlike (h : Ring.Staggered overflow s home.ring away.ring)
    (hlow : overflow = .checked →
      away.ring.state.producer.head.toNat + home.entered calls < 2 ^ 64) :
    home.AnswersAlike s away calls := by
  obtain ⟨q, hq⟩ := h.rest
  obtain ⟨hhome, haway⟩ := h.admits hlow
  rw [← entered_eq h] at haway
  obtain ⟨halike, hlast⟩ := run_unchecked h.turned hq calls
  have hrun := run_of_admits hq hhome
  have hrun' := run_of_admits (e := away) ((h.turned.inBuild .wrapping).holds hq) haway
  rw [h.turned.shape_eq] at hrun'
  refine ⟨?_, ?_, ?_⟩
  · rw [hrun, hrun', halike]
  · rw [hrun]
    exact fault_run (e := home.inBuild .wrapping) hq calls
  · rw [hrun, hrun']
    exact hlast.inBuild _

theorem breaksOff (h : Ring.Staggered overflow s home.ring away.ring) (hbuild : overflow = .checked)
    (hover : 2 ^ 64 ≤ away.ring.state.producer.head.toNat + home.entered calls) :
    home.BreaksOff away calls := by
  obtain ⟨q, hq⟩ := h.rest
  rw [← entered_eq h] at hover
  rcases run_cases (e := away.inBuild .wrapping) calls ((h.turned.inBuild .wrapping).holds hq)
    (h.straight hbuild).2.1 with
    ⟨-, hadvances⟩ | ⟨-, before, call, rest, hsplit, hlt, halike, hpanics⟩
  · exact absurd hadvances.lt (Nat.not_lt.mpr hover)
  rw [inBuild_inBuild, inBuild_of_eq (h.build_away.trans hbuild)] at halike hpanics
  refine ⟨before, call, rest, hsplit, ?_, hpanics⟩
  obtain ⟨hhome, -⟩ := h.admits fun _ => entered_eq h before ▸ hlt
  rw [halike, (run_unchecked h.turned hq before).1, run_of_admits hq hhome]

end Endpoints

/-! ### Rings that start empty -/

namespace Ring

/-- **Where a ring is started.**  Take a ring whose four cursors stand at `s` and the ring whose
cursors stand at zero.  Unless the build checks for overflow, they give call by call the same answers
and fill the buffers with the same bytes, whatever the modes of the ring and of the calls are, also
where the cursors or a single claim run over `2 ^ 64`; no call of either is kept from its answer but
by a refusal of its request; both can be split after the same calls, and then the endpoints answer
alike too; and all the while the cursors stay `s` apart and the slots turned as much.

If the build does check, this holds as long as the elements that have gone in, counted on from `s`,
stay below `2 ^ 64`; and as soon as they do not, the ring that was started at `s` breaks off with a
panic, whose claim gets to `2 ^ 64`. -/
theorem started_anywhere (s : UInt64) (name : RingName) (shape : Shape)
    (producer consumer : SyncMode) (calls : List RingCall) :
    let home := ofShape name shape producer consumer
    let away := emptyAt s name shape producer consumer
    ((shape.overflow = .checked → s.toNat + home.entered calls < 2 ^ 64) →
      home.AnswersAlike s away calls ∧
        ((∃ cause, (home.after calls).split = .error cause ∧
            (away.after calls).split = .error cause) ∨
          ∃ e e', (home.after calls).split = .ok e ∧ (away.after calls).split = .ok e' ∧
            ∀ more,
              ((shape.overflow = .checked →
                  s.toNat + home.entered calls + e.entered more < 2 ^ 64) →
                e.AnswersAlike s e' more) ∧
              (shape.overflow = .checked →
                2 ^ 64 ≤ s.toNat + home.entered calls + e.entered more →
                e.BreaksOff e' more))) ∧
    (shape.overflow = .checked → 2 ^ 64 ≤ s.toNat + home.entered calls →
      home.BreaksOff away calls) := by
  intro home away
  have hstarts : Staggered shape.overflow s home away := .emptyAt s name shape producer consumer
  refine ⟨fun hlow => ?_, fun hbuild hover => hstarts.breaksOff hbuild hover⟩
  have halike : home.AnswersAlike s away calls := hstarts.answersAlike hlow
  obtain ⟨hafter, hhead⟩ := hstarts.after hlow
  refine ⟨halike, halike.turned.split.imp id ?_⟩
  rintro ⟨e, e', he, he', hring, hring'⟩
  rw [← hring, ← hring'] at hafter
  rw [← hring'] at hhead
  have hsum (more : List SplitCall) (hbuild : shape.overflow = .checked) :
      e'.ring.state.producer.head.toNat + e.entered more =
        s.toNat + home.entered calls + e.entered more :=
    congrArg (· + e.entered more) (hhead hbuild)
  refine ⟨e, e', he, he', fun more => ⟨fun hlow' => ?_, fun hbuild hover => ?_⟩⟩
  · exact Endpoints.answersAlike hafter fun hbuild => hsum more hbuild ▸ hlow' hbuild
  · exact Endpoints.breaksOff hafter hbuild (hsum more hbuild ▸ hover)

/-- Three handles claimed at once, from two positions before `2 ^ 64` on. -/
def straddlingCalls : List RingCall :=
  [.enqueue #[5, 6, 7] .bulk, .count, .freeCount, .dequeue #[0, 0, 0, 0] .burst, .isEmpty]

theorem started_anywhere_straddling :
    let name : RingName := ⟨"edge", by decide⟩
    let shape := System.fourHandles
    (emptyAt (0 - 2) name (shape.inBuild .wrapping) .multi .single).answers straddlingCalls =
        [.stored (.ok 3), .number 3, .number 1, .handles (.ok 3) #[5, 6, 7, 0], .truth true] ∧
      (ofShape name (shape.inBuild .checked) .multi .single).BreaksOff
        (emptyAt (0 - 2) name (shape.inBuild .checked) .multi .single) straddlingCalls := by
  intro name shape
  have hplain := (started_anywhere (0 - 2) name (shape.inBuild .wrapping) .multi .single
    straddlingCalls).1 nofun
  have hchecks := (started_anywhere (0 - 2) name (shape.inBuild .checked) .multi .single
    straddlingCalls).2 rfl
  exact ⟨hplain.1.answers_eq.trans (by decide +kernel), hchecks (by decide +kernel)⟩

theorem not_forall_answers_emptyAt : ¬ ∀ (s : UInt64) (name : RingName) (shape : Shape)
    (producer consumer : SyncMode) (calls : List RingCall),
    (emptyAt s name shape producer consumer).answers calls =
      (ofShape name shape producer consumer).answers calls := by
  intro h
  have hsame := h (0 - 2) ⟨"edge", by decide⟩ System.fourHandles .multi .single straddlingCalls
  exact absurd hsame (by decide +kernel)

end Ring

end BurstRing
