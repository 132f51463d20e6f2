import BurstRing.Proofs.Ring.Contents
import BurstRing.Proofs.Stress.Places

/-!
# A stress check raises no false alarm

Whatever the schedule, the handles that the consumer has looked at, followed by those that wait in
the ring, are a merge of what the producers have sent: of each producer its first handles, in
order (`StressPlan.Merges`).  A producer's burst adds the next ones at the end, however few the
ring accepts, and the consumer's only moves the border between the two parts.

In a merge no tag is unknown and none comes twice, so nothing is ever marked in vain
(`StressCheck.Keeps`).  And as there are no more tags than handles to send, the ring is empty when
that many have been received.  The main statement is `StressCheck.no_false_alarm`.
-/

namespace BurstRing

namespace StressPlan

/-! ### Merges of what the producers send -/

/-- Tags of one producer. -/
def ofProducer (producer : Nat) (tags : List UInt64) : List UInt64 :=
  tags.filter fun t => (Tag.producer t).toNat == producer

/-- The stream holds what the producers have sent: of each its first handles, in order. -/
structure Merges (plan : StressPlan) (sent : Array Nat) (stream : List UInt64) : Prop where
  size : sent.size = plan.producers
  sent_le : ∀ producer, sent.getD producer 0 ≤ plan.perProducer
  producer_lt : ∀ t ∈ stream, (Tag.producer t).toNat < plan.producers
  ofProducer_eq : ∀ producer < plan.producers, ofProducer producer stream =
    (List.range (sent.getD producer 0)).map (tag producer)

variable {plan : StressPlan} {sent : Array Nat} {stream : List UInt64}

theorem merges_nil (plan : StressPlan) :
    plan.Merges (Array.replicate plan.producers 0) [] := by
  have hnone : ∀ producer, (Array.replicate plan.producers 0).getD producer 0 = 0 := by
    intro producer
    rw [Array.getD_eq_getD_getElem?, Array.getElem?_replicate]
    split <;> rfl
  refine ⟨Array.size_replicate, fun producer => ?_, nofun, fun producer _ => ?_⟩
  · rw [hnone]
    exact Nat.zero_le _
  · rw [hnone]
    rfl

theorem nodup_map_tag {producer n : Nat} (hp : producer < plan.producers)
    (hn : n ≤ plan.perProducer) : ((List.range n).map (tag producer)).Nodup := by
  refine List.nodup_range.map_on fun s hs s' hs' heq => ?_
  have hlt := (List.mem_range.mp hs).trans_le hn
  have hlt' := (List.mem_range.mp hs').trans_le hn
  rw [← sequence_tag hp hlt, heq, sequence_tag hp hlt']

theorem Merges.knows (h : plan.Merges sent stream) {t : UInt64} (ht : t ∈ stream) :
    plan.Knows t := by
  have hp := h.producer_lt t ht
  have hmem : t ∈ ofProducer (Tag.producer t).toNat stream :=
    List.mem_filter.mpr ⟨ht, beq_self_eq_true _⟩
  rw [h.ofProducer_eq _ hp] at hmem
  obtain ⟨s, hs, heq⟩ := List.mem_map.mp hmem
  rw [← heq]
  exact knows_tag hp ((List.mem_range.mp hs).trans_le (h.sent_le _))

/-- No tag comes twice: it would do so among those of its producer. -/
theorem Merges.nodup (h : plan.Merges sent stream) : stream.Nodup := by
  refine List.nodup_iff_count_le_one.mpr fun t => ?_
  by_cases ht : t ∈ stream
  · have hp := h.producer_lt t ht
    have hcount : (ofProducer (Tag.producer t).toNat stream).count t = stream.count t :=
      List.count_filter (beq_self_eq_true _)
    rw [← hcount, h.ofProducer_eq _ hp]
    exact List.nodup_iff_count_le_one.mp (nodup_map_tag hp (h.sent_le _)) t
  · rw [List.count_eq_zero_of_not_mem ht]
    exact Nat.zero_le 1

/-- A producer sends its next handles. -/
theorem Merges.extend (h : plan.Merges sent stream) {producer sequence n : Nat}
    (hsent : sent[producer]? = some sequence) (hn : sequence + n ≤ plan.perProducer) :
    plan.Merges (sent.setIfInBounds producer (sequence + n))
      (stream ++ (List.range' sequence n).map (tag producer)) := by
  obtain ⟨hp, hsequence⟩ := Array.getElem?_eq_some_iff.mp hsent
  have hget : ∀ other, (sent.setIfInBounds producer (sequence + n)).getD other 0 =
      if producer = other then sequence + n else sent.getD other 0 := by
    intro other
    rw [Array.getD_eq_getD_getElem?, Array.getD_eq_getD_getElem?, Array.getElem?_setIfInBounds,
      if_pos hp]
    split <;> rfl
  have hnew : ∀ t ∈ (List.range' sequence n).map (tag producer),
      (Tag.producer t).toNat = producer := by
    intro t ht
    obtain ⟨s, hs, rfl⟩ := List.mem_map.mp ht
    exact producer_tag (h.size ▸ hp) ((List.mem_range'_1.mp hs).2.trans_le hn)
  refine ⟨?_, fun other => ?_, fun t ht => ?_, fun other hother => ?_⟩
  · rw [Array.size_setIfInBounds, h.size]
  · rw [hget]
    split
    · exact hn
    · exact h.sent_le other
  · rcases List.mem_append.mp ht with ht | ht
    · exact h.producer_lt t ht
    · rw [hnew t ht, ← h.size]
      exact hp
  · rw [hget, ofProducer, List.filter_append, ← ofProducer, h.ofProducer_eq other hother]
    split
    · rename_i heq
      subst heq
      have hall : ((List.range' sequence n).map (tag producer)).filter
          (fun t => (Tag.producer t).toNat == producer) =
            (List.range' sequence n).map (tag producer) :=
        List.filter_eq_self.mpr fun t ht => beq_iff_eq.mpr (hnew t ht)
      have hold : sent.getD producer 0 = sequence := by
        rw [Array.getD_eq_getD_getElem?, hsent]
        rfl
      rw [hall, hold, ← List.map_append, List.range_eq_range', List.range_eq_range',
        ← List.range'_append_1, Nat.zero_add]
    · rename_i hne
      have hnone : ((List.range' sequence n).map (tag producer)).filter
          (fun t => (Tag.producer t).toNat == other) = [] :=
        List.filter_eq_nil_iff.mpr fun t ht heq => hne (by rw [← hnew t ht, beq_iff_eq.mp heq])
      rw [hnone, List.append_nil]

/-- A part of the stream from its beginning also has the first handles of each producer, in order
and without gaps. -/
theorem Merges.ascending {tags waiting : List UInt64} (h : plan.Merges sent (tags ++ waiting))
    {producer : Nat} (hp : producer < plan.producers) :
    ∃ n ≤ plan.perProducer,
      (ofProducer producer tags).map (fun t => (Tag.sequence t).toNat) = List.range n := by
  have hsplit := h.ofProducer_eq producer hp
  rw [ofProducer, List.filter_append, ← ofProducer, ← ofProducer] at hsplit
  generalize ofProducer producer tags = front, ofProducer producer waiting = back at hsplit
  have hlen := congrArg List.length hsplit
  rw [List.length_append, List.length_map, List.length_range] at hlen
  have hfront : front = (List.range front.length).map (tag producer) := by
    have htake := congrArg (List.take front.length) hsplit
    rwa [List.take_left, ← List.map_take, List.take_range, Nat.min_eq_left (by omega)] at htake
  have hle : front.length ≤ plan.perProducer := by
    have := h.sent_le producer
    omega
  refine ⟨front.length, hle, ?_⟩
  conv_lhs => rw [hfront]
  rw [List.map_map]
  refine (List.map_congr_left fun s hs => ?_).trans (List.map_id _)
  exact sequence_tag hp ((List.mem_range.mp hs).trans_le hle)

end StressPlan

namespace StressCheck

/-! ### What the consumer looks at -/

/-- Handles that the consumer looks at in a move of its own. -/
def burst (c : StressCheck) : List UInt64 :=
  match c.phase with
  | .counting _ =>
    match c.ring.dequeue (Array.replicate stressBurst 0) .burst with
    | (.ok n, out, _) => (out.extract 0 n).toList
    | _ => []
  | _ => []

/-- Handles that the consumer looks at in a move. -/
def observed (c : StressCheck) : StressMove → List UInt64
  | .consume => c.burst
  | .produce _ | .giveUp => []

/-- Handles that the consumer looks at in the course of a schedule, in order. -/
def observedAlong : List StressMove → StressCheck → List UInt64
  | [], _ => []
  | move :: schedule, c => c.observed move ++ observedAlong schedule (c.act move)

/-! ### The invariant -/

/-- The consumer has looked at `tags` and marked them all, and the ring has what else was sent. -/
structure Keeps (plan : StressPlan) (tags : List UInt64) (c : StressCheck) : Prop where
  plan_eq : c.plan = plan
  waiting : ∃ waiting, c.ring.Has waiting ∧ plan.Merges c.sent (tags ++ waiting)
  marks : plan.Marks tags c.seen
  received : c.received = tags.length
  phase : ∀ cause, c.phase ≠ .failed cause
  broken : c.broken = false

variable {plan : StressPlan} {tags : List UInt64} {c : StressCheck}

theorem Keeps.start {overflow : Overflow} {memory : Memory} {ring : Ring}
    (h : plan.ring overflow memory = .ok ring) : (StressCheck.start plan ring).Keeps plan [] where
  plan_eq := rfl
  waiting := by
    obtain ⟨capacity, hring⟩ := plan.ring_eq_ok h
    exact ⟨[], Ring.has_nil hring, plan.merges_nil⟩
  marks := plan.marks_nil
  received := rfl
  phase := nofun
  broken := rfl

/-- However few handles the ring accepts, the producer goes on with the next one. -/
theorem Keeps.produce (h : c.Keeps plan tags) (producer : Nat) :
    (c.produce producer).Keeps plan tags := by
  obtain ⟨plan', ring, sent, seen, received, phase, broken⟩ := c
  obtain ⟨rfl, ⟨waiting, hring, hmerges⟩, hmarks, hreceived, hphase, hbroken⟩ := h
  rw [StressCheck.produce]
  cases hsent : sent[producer]? with
  | none => exact ⟨rfl, ⟨waiting, hring, hmerges⟩, hmarks, hreceived, hphase, hbroken⟩
  | some sequence =>
      dsimp only
      split
      · rename_i hmore
        have hsize := plan'.size_batch producer sequence
        have hsome : (plan'.batch producer sequence).size ≠ 0 := by
          rw [hsize, stressBatch]
          omega
        have hfits : (plan'.batch producer sequence).size < UInt64.size := by
          rw [hsize]
          exact (Nat.min_le_left _ _).trans_lt (by decide)
        obtain ⟨n, hn, ring', henqueue, hring'⟩ := hring.enqueue hsome hfits
        rw [plan'.take_batch producer sequence hn] at hring'
        rw [hsize] at hn
        have hle : sequence + n ≤ plan'.perProducer := by omega
        have hmerges' := hmerges.extend hsent hle
        rw [List.append_assoc] at hmerges'
        simp only [henqueue]
        exact ⟨rfl, ⟨_, hring', hmerges'⟩, hmarks, hreceived, hphase, hbroken⟩
      · exact ⟨rfl, ⟨waiting, hring, hmerges⟩, hmarks, hreceived, hphase, hbroken⟩

/-- Of tags that follow in the stream the consumer has nothing to complain. -/
theorem keeps_observe {ring : Ring} {sent : Array Nat} {seen : Array Bool} {waiting : List UInt64}
    {new : Array UInt64} (phase : ObserverPhase) (hring : ring.Has waiting)
    (hmerges : plan.Merges sent (tags ++ new.toList ++ waiting)) (hmarks : plan.Marks tags seen) :
    (observe new ⟨plan, ring, sent, seen, tags.length, phase, false⟩).Keeps plan
      (tags ++ new.toList) := by
  have hknows : ∀ t ∈ tags ++ new.toList, plan.Knows t :=
    fun t ht => hmerges.knows (List.mem_append_left _ ht)
  have hnodup : (tags ++ new.toList).Nodup := (List.nodup_append.mp hmerges.nodup).1
  obtain ⟨seen', hmark, hmarks'⟩ := hmarks.foldlM hknows hnodup
  rw [Array.foldlM_toList] at hmark
  simp only [observe, hmark]
  refine ⟨rfl, ⟨waiting, hring, hmerges⟩, hmarks', ?_, fun cause => ?_, rfl⟩
  · rw [List.length_append]
    rfl
  · dsimp only
    split <;> nofun

theorem Keeps.consume (h : c.Keeps plan tags) : c.consume.Keeps plan (tags ++ c.burst) := by
  obtain ⟨plan', ring, sent, seen, received, phase, broken⟩ := c
  obtain ⟨rfl, ⟨waiting, hring, hmerges⟩, hmarks, rfl, hphase, rfl⟩ := h
  cases phase with
  | counting idle =>
      obtain ⟨ring', hdequeue, hring'⟩ := hring.dequeue (n := stressBurst) (by decide) (by decide)
      have hburst : ((overwrite (waiting.take stressBurst) (Array.replicate stressBurst 0)).extract
          0 (waiting.take stressBurst).length).toList = waiting.take stressBurst :=
        toList_extract_overwrite _ _
      rw [← List.take_append_drop stressBurst waiting, ← List.append_assoc] at hmerges
      simp only [StressCheck.consume, StressCheck.burst, hdequeue]
      refine keeps_observe _ hring' ?_ hmarks
      rw [hburst]
      exact hmerges
  | complete | gaveUp | failed cause =>
      exact (List.append_nil tags).symm ▸ ⟨rfl, ⟨waiting, hring, hmerges⟩, hmarks, rfl, hphase, rfl⟩

theorem Keeps.giveUp (h : c.Keeps plan tags) : c.giveUp.Keeps plan tags := by
  rw [StressCheck.giveUp]
  split
  · exact ⟨h.plan_eq, h.waiting, h.marks, h.received, nofun, h.broken⟩
  · exact h

theorem Keeps.act (h : c.Keeps plan tags) (move : StressMove) :
    (c.act move).Keeps plan (tags ++ c.observed move) := by
  cases move with
  | produce producer => exact (List.append_nil tags).symm ▸ h.produce producer
  | consume => exact h.consume
  | giveUp => exact (List.append_nil tags).symm ▸ h.giveUp

theorem Keeps.follow (schedule : List StressMove) :
    ∀ {tags : List UInt64} {c : StressCheck}, c.Keeps plan tags →
      (c.follow schedule).Keeps plan (tags ++ c.observedAlong schedule) := by
  induction schedule with
  | nil => intro tags c h; rwa [observedAlong, List.append_nil]
  | cons move schedule ih =>
      intro tags c h
      rw [observedAlong, ← List.append_assoc]
      exact ih (h.act move)

/-! ### No false alarm -/

/-- What there is to say about a check whose consumer has looked at `tags`. -/
structure Faithful (plan : StressPlan) (tags : List UInt64) (c : StressCheck) : Prop where
  /-- None of the tags is unknown. -/
  knows : ∀ t ∈ tags, plan.Knows t
  /-- The handles of each producer are seen in ascending order, from the first on without gaps. -/
  ascending : ∀ producer < plan.producers, ∃ n ≤ plan.perProducer,
    (StressPlan.ofProducer producer tags).map (fun t => (Tag.sequence t).toNat) = List.range n
  received : c.received = tags.length
  /-- Nothing has failed: no tag has been unknown or seen before. -/
  phase : ∀ cause, c.phase ≠ .failed cause
  /-- If anything is wrong in the end, handles are missing. -/
  verdict : ∀ cause, c.verdict = .error cause → cause = .lost plan.total c.received
  /-- As soon as the number is right, every handle has been marked, and once only. -/
  marked : c.received = plan.total → ∀ producer < plan.producers, ∀ sequence < plan.perProducer,
    tags.count (StressPlan.tag producer sequence) = 1 ∧
      c.seen[plan.place producer sequence]? = some true
  /-- Then nothing is left in the ring either. -/
  passed : c.received = plan.total → c.ring.isEmpty = true ∧
    c.verdict = .ok ⟨plan.producers, plan.total, c.ring.capacity⟩

theorem Keeps.verdict_eq (h : c.Keeps plan tags) : c.verdict =
    if c.received ≠ plan.total ∨ c.ring.isEmpty = false then .error (.lost plan.total c.received)
    else .ok ⟨plan.producers, plan.total, c.ring.capacity⟩ := by
  obtain ⟨plan', ring, sent, seen, received, phase, broken⟩ := c
  obtain ⟨rfl, -, -, -, hphase, rfl⟩ := h
  cases phase with
  | failed cause => exact absurd rfl (hphase cause)
  | counting | complete | gaveUp => rfl

/-- Between the tags that have been seen and the total there is no room for more. -/
theorem Keeps.isEmpty (h : c.Keeps plan tags) (hall : c.received = plan.total) :
    c.ring.isEmpty = true := by
  obtain ⟨waiting, hring, hmerges⟩ := h.waiting
  have hle := StressPlan.length_le_total (fun _ => hmerges.knows) hmerges.nodup
  rw [List.length_append, ← h.received, hall] at hle
  exact hring.isEmpty_iff.mpr (List.length_eq_zero_iff.mp (by omega))

theorem Keeps.faithful (h : c.Keeps plan tags) : c.Faithful plan tags := by
  obtain ⟨waiting, -, hmerges⟩ := h.waiting
  have hknows : ∀ t ∈ tags, plan.Knows t := fun t ht => hmerges.knows (List.mem_append_left _ ht)
  have hnodup : tags.Nodup := (List.nodup_append.mp hmerges.nodup).1
  refine ⟨hknows, fun _ => hmerges.ascending, h.received, h.phase, fun cause hcause => ?_,
    fun hall producer hp sequence hs => ?_, fun hall => ⟨h.isEmpty hall, ?_⟩⟩
  · rw [h.verdict_eq] at hcause
    split at hcause
    · exact (Except.error.inj hcause).symm
    · cases hcause
  · have ht := StressPlan.knows_tag hp hs
    have hmem := StressPlan.mem_of_length_eq hknows hnodup (h.received ▸ hall) ht
    have hmarked := (h.marks.marked _).mpr ⟨_, hmem, rfl⟩
    refine ⟨List.count_eq_one_of_mem hnodup hmem, ?_⟩
    rw [StressPlan.placeOf_tag hp hs, Array.getD_eq_getD_getElem?] at hmarked
    cases hseen : c.seen[plan.place producer sequence]? with
    | none => rw [hseen] at hmarked; cases hmarked
    | some seen => rw [hseen] at hmarked; exact congrArg some hmarked
  · rw [h.verdict_eq, if_neg]
    rw [h.isEmpty hall]
    exact fun hlost => hlost.elim (absurd hall) nofun

/-- A round is a schedule too. -/
theorem round_eq_follow (c : StressCheck) :
    c.round = c.follow ((List.range c.plan.producers).map .produce ++ [.consume]) := by
  rw [follow, List.foldl_append, List.foldl_map]
  rfl

theorem run_eq_follow (fuel : Nat) : ∀ c, ∃ schedule, run fuel c = follow schedule c := by
  induction fuel with
  | zero => intro c; exact ⟨[], rfl⟩
  | succ fuel ih =>
      intro c
      rw [run]
      split
      · exact ⟨[], rfl⟩
      · obtain ⟨schedule, hschedule⟩ := ih c.round
        refine ⟨(List.range c.plan.producers).map .produce ++ [.consume] ++ schedule, ?_⟩
        rw [hschedule, round_eq_follow, follow, follow, follow, ← List.foldl_append]

/-- So rounds raise no false alarm either. -/
theorem faithful_run {overflow : Overflow} {memory : Memory} {ring : Ring}
    (hring : plan.ring overflow memory = .ok ring) (fuel : Nat) :
    ∃ tags, (run fuel (start plan ring)).Faithful plan tags := by
  obtain ⟨schedule, hschedule⟩ := run_eq_follow fuel (start plan ring)
  exact ⟨_, hschedule ▸ ((Keeps.start hring).follow schedule).faithful⟩

/-- **No false alarm.**  In every plan that is accepted the tags are words with both numbers side by
side, and no two of them share a place below the total.  And whenever the ring can be created,
under every schedule of bursts the consumer sees only tags of the plan, those of each producer in
ascending order, and finds fault with none; when it has seen as many as were to be sent, it has
marked each of them once, the ring is empty, and the check has passed. -/
theorem no_false_alarm {producers perProducer : UInt64} {overflow : Overflow} {memory : Memory}
    {ring : Ring} (hplan : StressPlan.ofWords producers perProducer = .ok plan)
    (hring : plan.ring overflow memory = .ok ring) (schedule : List StressMove) :
    (plan.producers = producers.toNat ∧ plan.perProducer = perProducer.toNat ∧
      plan.total < UInt64.size) ∧
    (∀ producer < plan.producers, ∀ sequence < plan.perProducer,
      (StressPlan.tag producer sequence).toNat = producer * 2 ^ Tag.sequenceBits + sequence) ∧
    (∀ t, plan.Knows t → plan.placeOf t < plan.total) ∧
    (∀ t t', plan.Knows t → plan.Knows t' → plan.placeOf t = plan.placeOf t' → t = t') ∧
    ((start plan ring).follow schedule).Faithful plan
      ((start plan ring).observedAlong schedule) := by
  obtain ⟨hproducers, hperProducer⟩ := StressPlan.ofWords_eq_ok hplan
  refine ⟨⟨hproducers, hperProducer, plan.total_lt⟩, fun _ hp _ hs => StressPlan.toNat_tag hp hs,
    fun _ => StressPlan.Knows.placeOf_lt, fun _ _ => StressPlan.Knows.eq_of_placeOf_eq, ?_⟩
  exact ((Keeps.start hring).follow schedule).faithful

/-- One handle more than a batch. -/
def batchAndOne : StressPlan := ⟨1, 33, by decide, by decide, by decide, by decide⟩

/-- The consumer comes too early, and the producer has to go on after its first batch. -/
def inTwoBursts : List StressMove :=
  [.consume, .produce 0, .produce 1, .produce 0, .consume, .giveUp, .produce 0]

theorem no_false_alarm_inTwoBursts :
    ∃ ring, StressPlan.ofWords 1 33 = .ok batchAndOne ∧
      batchAndOne.ring .checked (.below 1000) = .ok ring ∧
      ((start batchAndOne ring).follow inTwoBursts).received = 33 ∧
      ((start batchAndOne ring).follow inTwoBursts).ring.isEmpty = true ∧
      ∃ capacity,
        ((start batchAndOne ring).follow inTwoBursts).verdict = .ok ⟨1, 33, capacity⟩ := by
  have hplan : StressPlan.ofWords 1 33 = .ok batchAndOne := rfl
  have hseen : (batchAndOne.ring .checked (.below 1000)).map
      (fun ring => ((start batchAndOne ring).observedAlong inTwoBursts).length) = .ok 33 := by
    decide +kernel
  cases hring : batchAndOne.ring .checked (.below 1000) with
  | error cause => rw [hring] at hseen; cases hseen
  | ok ring =>
      rw [hring] at hseen
      have hfaithful := (no_false_alarm hplan hring inTwoBursts).2.2.2.2
      have hreceived := hfaithful.received.trans (Except.ok.inj hseen)
      obtain ⟨hempty, hverdict⟩ := hfaithful.passed hreceived
      exact ⟨ring, hplan, rfl, hreceived, hempty, _, hverdict⟩

end StressCheck

end BurstRing
