import BurstRing.Proofs.Ring.Delivery

/-!
# First in, first out, for any number of callers

What the state of a system says of each caller: all its works but the newest are done, and its
claims on one side ascend in the order in which it made them (`Caller.InTurn`).  A claim starts
where the head stands when it is granted, and no claim granted before reaches beyond the head.

`System.delivered_exactly` puts together what holds in every state of every run of shared calls:
each fetched record is the one stored at its position, each position is stored and fetched once,
claims of one caller ascend, and a ring at rest holds what was stored and not fetched.
-/

namespace BurstRing

/-! ### One caller -/

/-- All works but the newest are done, and the claims on each side ascend, the newest first. -/
structure Caller.InTurn (c : Caller) : Prop where
  done : ∀ w ∈ c.works.tail, w.isDone = true
  ascending : ∀ side, (claimsOn side Call.claim? c.calls).Pairwise fun newer older =>
    older.stop.toNat ≤ newer.start.toNat

namespace Call.Progress

variable {shape : Shape} {s s' : RingState} {c c' : Call}

theorem side_eq (h : c.Progress shape s s' c') : c'.side = c.side := by
  cases h <;> rfl

/-- The call keeps its claim and the head stays, or it is granted one and the head moves over
it. -/
theorem claim?_cases (h : c.Progress shape s s' c') :
    c'.claim? = c.claim? ∧ (s'.cursors c.side).head = (s.cursors c.side).head ∨
      c.claim? = none ∧ ∃ claim, c'.claim? = some claim ∧
        (s.cursors c.side).head = claim.start ∧ (s'.cursors c.side).head = claim.stop := by
  cases h with
  | loadHead phase | retry phase | breakClaim phase | copyOut phase | copied phase
  | overrun phase | seeTail phase | breakPublication phase =>
      exact .inl ⟨by rw [claim?, claim?, phase], rfl⟩
  | copyIn phase => exact .inl ⟨by rw [claim?, claim?, phase], by cases c.side <;> rfl⟩
  | @decide start phase =>
      refine .inl ⟨?_, rfl⟩
      rcases decide_cases shape c start (s.cursors c.side.opposite).tail with
        heq | heq | ⟨claim, heq, -⟩
      all_goals simp only [claim?, phase, heq]
  | grant phase head =>
      refine .inr ⟨by rw [claim?, phase], _, rfl, head, ?_⟩
      rw [RingState.cursors_setCursors]
      rfl
  | publish phase =>
      refine .inl ⟨?_, ?_⟩
      · rcases phase with phase | phase
        · rw [claim?, claim?, phase]
        · rw [claim?, claim?, phase]
      · rw [RingState.cursors_setCursors]
        rfl
  | stay => exact .inl ⟨rfl, rfl⟩

end Call.Progress

namespace System

variable {s : System} {m : Move}

/-- Progress of the newest call leaves the claims of its caller ascending. -/
theorem ascending_progress (ho : s.Orderly) {c c' : Call} {rest : List Call} {s' : RingState}
    (hrest : ∀ d ∈ rest, d ∈ s.calls) (hp : c.Progress s.shape s.state s' c') (side : Side)
    (h : (claimsOn side Call.claim? (c :: rest)).Pairwise fun newer older =>
      older.stop.toNat ≤ newer.start.toNat) :
    (claimsOn side Call.claim? (c' :: rest)).Pairwise fun newer older =>
      older.stop.toNat ≤ newer.start.toNat := by
  have hside := hp.side_eq
  rcases hp.claim?_cases with ⟨heq, -⟩ | ⟨hnone, claim, hclaim, hhead, -⟩
  · simpa only [claimsOn, List.filterMap_cons, hside, heq] using h
  · rw [claimsOn_cons_none hnone] at h
    by_cases hs : c.side = side
    -- No claim granted before reaches beyond the head, where this one starts.
    · rw [claimsOn_cons_some (hside.trans hs) hclaim]
      refine List.pairwise_cons.mpr ⟨fun older holder => ?_, h⟩
      obtain ⟨d, hd, hds, hdc⟩ := mem_claimsOn.mp holder
      rw [← hhead, hs, ← hds]
      exact (ho.consistent.granted_bounds (hrest d hd) hdc).2
    · rwa [claimsOn_cons_of_ne (hside ▸ hs)]

theorem inTurn_start {caller : Caller} (h : caller.InTurn) (job : Job) :
    (caller.start job).InTurn := by
  unfold Caller.start
  split
  · rename_i hidle
    obtain ⟨works⟩ := caller
    refine ⟨fun w hw => ?_, fun side => ?_⟩
    · cases works with
      | nil => cases hw
      | cons newest works =>
          rcases List.mem_cons.mp hw with rfl | hw
          · simpa [Caller.isIdle] using hidle
          · exact h.done w hw
    · have hclaims : claimsOn side Call.claim? (Caller.calls ⟨job.begin :: works⟩) =
          claimsOn side Call.claim? (Caller.calls ⟨works⟩) := by
        cases job with
        | transfer => exact claimsOn_cons_none rfl
        | count => rfl
      rw [hclaims]
      exact h.ascending side
  · exact h

theorem inTurn_step (ho : s.Orderly) {caller : Caller} (hmem : caller ∈ s.callers)
    (h : caller.InTurn) : (caller.step s.shape s.state).2.InTurn := by
  obtain ⟨works⟩ := caller
  rcases works with - | ⟨call | probe, works⟩
  · exact h
  · have hcalls : ∀ d ∈ call :: Caller.calls ⟨works⟩, d ∈ s.calls := fun d hd =>
      mem_calls.mpr ⟨_, hmem, hd⟩
    refine ⟨h.done, fun side => ?_⟩
    exact ascending_progress ho (fun d hd => hcalls d (List.mem_cons_of_mem _ hd))
      (Call.progress_shared _ _ (ho.shared call (hcalls call List.mem_cons_self))) side
      (h.ascending side)
  · exact ⟨h.done, h.ascending⟩

theorem inTurn_spoil (ho : s.Orderly) {caller : Caller} (hmem : caller ∈ s.callers)
    (h : caller.InTurn) : caller.spoil.InTurn := by
  obtain ⟨works⟩ := caller
  rcases works with - | ⟨call | probe, works⟩
  · exact h
  · have hcalls : ∀ d ∈ Caller.calls ⟨works⟩, d ∈ s.calls := fun d hd =>
      mem_calls.mpr ⟨_, hmem, List.mem_cons_of_mem _ hd⟩
    refine ⟨h.done, fun side => ?_⟩
    exact ascending_progress ho hcalls (call.progress_spoil _ s.state) side (h.ascending side)
  · exact ⟨h.done, h.ascending⟩

theorem inTurn_act (ho : s.Orderly) (h : ∀ caller ∈ s.callers, caller.InTurn) :
    ∀ caller ∈ (s.act m).callers, caller.InTurn := by
  have hset : ∀ (i : Nat) (caller' : Caller), caller'.InTurn →
      ∀ caller ∈ s.callers.setIfInBounds i caller', caller.InTurn := by
    intro i caller' h' caller hmem
    rcases Array.mem_or_eq_of_mem_setIfInBounds hmem with hmem | rfl
    · exact h caller hmem
    · exact h'
  cases m with
  | start i job =>
      simp only [act]
      cases hi : s.callers[i]? with
      | none => rwa [modify_eq_self hi]
      | some caller =>
          rw [modify_eq_set hi]
          exact hset i _ (inTurn_start (h caller (Array.mem_of_getElem? hi)) job)
  | step i =>
      obtain ⟨shape, state, callers⟩ := s
      simp only [act]
      cases hi : callers[i]? with
      | none => exact h
      | some caller =>
          have hmem := Array.mem_of_getElem? hi
          exact hset i _ (inTurn_step ho hmem (h caller hmem))
  | spoil i =>
      simp only [act]
      cases hi : s.callers[i]? with
      | none => rwa [modify_eq_self hi]
      | some caller =>
          have hmem := Array.mem_of_getElem? hi
          rw [modify_eq_set hi]
          exact hset i _ (inTurn_spoil ho hmem (h caller hmem))

/-! ### What has been moved -/

/-- Elements that finished transfers of one side have moved. -/
def moved (s : System) (side : Side) : Nat :=
  ((s.calls.filter fun c => c.side = side).map Call.moved).sum

theorem sum_moved_eq (side : Side) (calls : List Call) :
    ((calls.filter fun c => c.side = side).map Call.moved).sum =
      ((claimsOn side Call.published? calls).map fun c => c.len.toNat).sum := by
  induction calls with
  | nil => rfl
  | cons c calls ih =>
      by_cases hs : c.side = side
      · rw [List.filter_cons_of_pos (by simpa using hs), List.map_cons, List.sum_cons, ih,
          c.moved_eq]
        cases hclaim : c.published? with
        | none => rw [claimsOn_cons_none hclaim, Option.map_none, Option.getD_none, Nat.zero_add]
        | some claim => rw [claimsOn_cons_some hs hclaim]; rfl
      · rw [List.filter_cons_of_neg (by simpa using hs), claimsOn_cons_of_ne hs]
        exact ih

/-- What the finished transfers of a side have moved lies before its tail. -/
theorem Orderly.moved_eq (ho : s.Orderly) (side : Side) :
    s.moved side = (s.state.cursors side).tail.toNat := by
  obtain ⟨before, after, hb, -, htile, -⟩ := ho.consistent.tiled side
  rw [moved, sum_moved_eq, ← (hb.map _).sum_eq, ← htile.sum_len, Nat.zero_add]

/-- A ring holds what was stored and not fetched. -/
theorem moved_producer_eq (ho : s.Orderly) : s.moved .producer = s.moved .consumer + s.count := by
  have hle := ho.consistent.tail_le_tail
  have hcap : s.state.producer.tail.toNat ≤ s.state.consumer.tail.toNat + s.shape.capacity :=
    (ho.consistent.tiled .producer).tail_le_head.trans (ho.consistent.head_le .producer)
  rw [ho.moved_eq, ho.moved_eq, count, RingState.count,
    UInt64.toNat_sub_of_le _ _ (UInt64.le_iff_toNat_le.mpr hle)]
  simp only [RingState.cursors]
  omega

/-! ### All callers -/

/-- What holds of every system in a run of shared calls. -/
structure Sound (s : System) : Prop where
  orderly : s.Orderly
  faithful : Faithful s.shape s.state s.calls
  inTurn : ∀ caller ∈ s.callers, caller.InTurn

theorem sound_create (shape : Shape) (callers : Nat) : (create shape callers).Sound where
  orderly := orderly_create shape callers
  faithful := by
    rw [calls_create]
    exact .initial shape _
  inTurn caller hmem := by
    obtain rfl := (Array.mem_replicate.mp hmem).2
    exact ⟨fun w hw => absurd hw List.not_mem_nil, fun side => .nil⟩

theorem Sound.run {schedule : List Move} (h : s.Sound) (hshared : ∀ m ∈ schedule, m.IsShared)
    (hfits : ∀ m ∈ schedule, m.Fits s.shape)
    (hbound : (s.run schedule).claimed .producer < 2 ^ 64) : (s.run schedule).Sound := by
  have hact : ∀ (m : Move) (t : System), m.IsShared ∧ m.Fits s.shape →
      (t.act m).claimed .producer < 2 ^ 64 →
      t.shape = s.shape ∧ t.Sound → (t.act m).shape = s.shape ∧ (t.act m).Sound := by
    rintro m t ⟨hm, hf⟩ hb ⟨hshape, ht⟩
    refine ⟨(change_act m t).1.trans hshape, ht.orderly.act hm hb, ?_, ?_⟩
    · exact faithful_act ht.orderly.consistent ht.orderly.progress (hshape ▸ hf) ht.faithful
    · exact inTurn_act ht.orderly ht.inTurn
  exact (run_invariant hact (fun m hm => ⟨hshared m hm, hfits m hm⟩) hbound ⟨rfl, h⟩).2

/-- The claims granted on one side, published or held. -/
def granted (s : System) (side : Side) : List Claim := claimsOn side Call.claim? s.calls

/-- **Exact delivery.**  In every state of every run of shared calls, each record that a dequeue
has copied out is the record that a finished enqueue was given for that position; the claims of a
side cover each position below its head and share none, so no position is stored or delivered
twice; the claims of one caller on one side ascend, its newest first; and when all callers are
idle, as many elements have been stored as have been fetched and are counted. -/
theorem delivered_exactly (shape : Shape) (callers : Nat) (schedule : List Move)
    (hshared : ∀ m ∈ schedule, m.IsShared) (hfits : ∀ m ∈ schedule, m.Fits shape)
    (hbound : ((create shape callers).run schedule).claimed .producer < 2 ^ 64) :
    let s := (create shape callers).run schedule
    (∀ d ∈ s.calls, d.side = .consumer → ∀ a ∈ d.claim?, ∀ i < d.copied,
      ∃ e ∈ s.calls, e.side = .producer ∧ ∃ b, e.phase = .done (some b) ∧
        b.Covers (a.start.toNat + i) ∧ recordAt shape.elementSize d.buffer i =
          recordAt shape.elementSize e.buffer (a.start.toNat + i - b.start.toNat)) ∧
    (∀ side, (s.granted side).Pairwise Claim.Apart ∧ ∀ p, (∃ a ∈ s.granted side, a.Covers p) ↔
      p < (s.state.cursors side).head.toNat) ∧
    (∀ caller ∈ s.callers, ∀ side, (claimsOn side Call.claim? caller.calls).Pairwise
      fun newer older => older.stop.toNat ≤ newer.start.toNat) ∧
    ((∀ caller ∈ s.callers, caller.isIdle = true) →
      s.moved .producer = s.moved .consumer + s.count) := by
  intro s
  have h : s.Sound := (sound_create shape callers).run hshared hfits hbound
  have hcons := h.orderly.consistent
  have hshape : s.shape = shape := shape_run schedule _
  refine ⟨fun d hd hds a ha i hi => ?_, fun side => ?_, fun caller hmem => ?_, ?_⟩
  · have hcov := hcons.covers_of_copied hd ha hi
    have hstop := (hcons.granted_bounds hd ha).2
    have hle : s.state.consumer.head.toNat ≤ s.state.producer.tail.toNat :=
      hcons.head_le .consumer
    rw [hds] at hstop
    obtain ⟨e, he, hes, b, hphase, hcov'⟩ :=
      hcons.exists_stored (Nat.lt_of_lt_of_le hcov.2 (hstop.trans hle))
    have hstored : Carried s.shape.elementSize .producer s.calls (a.start.toNat + i) _ :=
      ⟨e, he, hes, hcons.carries_of_published he (by rw [Call.published?, hphase]) hcov' _⟩
    have hfetched := h.faithful.fetched _ _ ⟨d, hd, hds, a, ha, i, hi, rfl, rfl⟩
    refine ⟨e, he, hes, b, hphase, hcov', ?_⟩
    rw [← hshape]
    exact hcons.carried_unique hfetched hstored
  · exact ⟨hcons.granted_apart side, hcons.granted_covers side⟩
  · exact (h.inTurn caller hmem).ascending
  · exact fun _ => moved_producer_eq h.orderly

/-- Two bursts of three records and two requests, the second over the end of the storage. -/
def handover : List Move :=
  let put (b : UInt8) : Job := .transfer .producer .exactly (.shared .multi) 3
    ((Array.range 12).map fun i => b + i.toUInt8)
  let get (mode : SyncMode) (n : UInt64) : Job :=
    .transfer .consumer .atMost (.shared mode) n (Array.replicate (4 * n.toNat) 0)
  let steps (n caller : Nat) : List Move := List.replicate n (.step caller)
  Move.start 0 (put 10) :: steps 9 0 ++ Move.start 1 (get .single 2) :: steps 7 1 ++
    Move.start 0 (put 50) :: steps 9 0 ++ Move.start 1 (get .multi 5) :: steps 10 1

theorem delivered_exactly_handover :
    let s := run handover (create fourSlots 2)
    s.calls.map (fun c => (c.side, c.copied)) =
      [(.producer, 3), (.producer, 3), (.consumer, 4), (.consumer, 2)] ∧
    (∀ d ∈ s.calls, d.side = .consumer → ∀ a ∈ d.claim?, ∀ i < d.copied,
      ∃ e ∈ s.calls, e.side = .producer ∧ ∃ b, e.phase = .done (some b) ∧
        b.Covers (a.start.toNat + i) ∧ recordAt 4 d.buffer i =
          recordAt 4 e.buffer (a.start.toNat + i - b.start.toNat)) ∧
    s.moved .producer = s.moved .consumer + s.count :=
  have h := delivered_exactly fourSlots 2 handover (by decide) (by decide +kernel)
    (by decide +kernel)
  ⟨by decide +kernel, h.1, h.2.2.2 (by decide +kernel)⟩

end System

end BurstRing
