import BurstRing.Ring.Endpoint
import BurstRing.Proofs.Ring.Owned
import BurstRing.Proofs.Ring.Request
import BurstRing.Proofs.Ring.Shortfall
import Mathlib.Algebra.Order.BigOperators.Group.List
import Mathlib.Algebra.Order.Group.Nat

/-!
# The two endpoints of a ring

The endpoints of a split ring work beside each other, each in atomic steps of its own, and neither
of them tests or exchanges a cursor.  What the producer may claim it reads off the consumer's tail,
and what the consumer may claim off the producer's tail; these only move forward, so a reading is
never above the capacity and never promises more than there is when the head is stored
(`Call.Covered`).

The records that the producer has stored, and those that the consumer has fetched, form two lists
by position (`Caller.transcript`), and the second one is the beginning of the first
(`System.endpoints_deliver`).
-/

namespace BurstRing

/-! ### Readings -/

/-- The range that the call is about to reserve is its share of its last reading, and the reading
says no more than what lies between the range and the horizon. -/
def Call.Covered (shape : Shape) (last : Option RingState) (s : RingState) (c : Call) : Prop :=
  ∀ claim, c.phase = .exchange claim → ∃ u, last = some u ∧
    claim.len = take c.wanted c.behavior
      (available shape c.side claim.start (u.cursors c.side.opposite).tail) ∧
    (available shape c.side claim.start (u.cursors c.side.opposite).tail).toNat ≤
      s.horizon shape c.side - claim.start.toNat

namespace Call.Covered

variable {shape : Shape} {last : Option RingState} {s s' : RingState} {calls : List Call}
  {c c' : Call}

theorem of_phase (h : ∀ claim, c.phase ≠ .exchange claim) : c.Covered shape last s :=
  fun claim hphase => absurd hphase (h claim)

/-- Nothing is asked of a call that has not loaded yet, or is about to. -/
theorem of_before (h : c.phase = .loadHead ∨ c.isLoading = true) : c.Covered shape last s := by
  refine of_phase fun claim hphase => ?_
  rcases h with h | hload
  · rw [h] at hphase
    cases hphase
  · obtain ⟨start, h⟩ := isLoading_iff.mp hload
    rw [h] at hphase
    cases hphase

theorem mono (h : c.Covered shape last s)
    (hhorizon : s.horizon shape c.side ≤ s'.horizon shape c.side) :
    c.Covered shape last s' := by
  intro claim hphase
  obtain ⟨u, hlast, hlen, hle⟩ := h claim hphase
  exact ⟨u, hlast, hlen, by omega⟩

/-- Progress other than a load leads to no new range. -/
theorem progress (h : c.Covered shape last s) (hp : c.Progress shape s s' c')
    (hload : c.isLoading = false) : c'.Covered shape last s' := by
  cases hp with
  | decide phase =>
      rw [isLoading_iff.mpr ⟨_, phase⟩] at hload
      cases hload
  | stay => exact h
  | _ => exact of_phase nofun

/-- A step keeps the call covered, by this moment if it is a load against the head. -/
theorem step (hcons : Consistent shape s calls)
    (hp : c.Progress shape s (c.step shape s).1 (c.step shape s).2)
    (hstart : ∀ start, c.phase = .loadOpposing start → start = (s.cursors c.side).head)
    (h : c.Covered shape last s) :
    (c.step shape s).2.Covered shape (if c.isLoading then some s else last)
      (c.step shape s).1 := by
  split
  · rename_i hload
    obtain ⟨start, hphase⟩ := isLoading_iff.mp hload
    obtain rfl := hstart start hphase
    simp only [Call.step, hphase]
    rcases decide_cases shape c (s.cursors c.side).head (s.cursors c.side.opposite).tail with
      heq | heq | ⟨claim, heq, hclaim, hlen, -⟩
    · exact of_before (.inl heq)
    · exact of_phase fun claim hphase => by rw [heq] at hphase; cases hphase
    · intro claim' hphase
      rw [heq] at hphase
      cases hphase
      rw [hclaim]
      exact ⟨s, rfl, hlen, (hcons.toNat_available_head c.side).le⟩
  · rename_i hload
    exact h.progress hp (Bool.eq_false_of_not_eq_true hload)

end Call.Covered

namespace System.Parted

variable {s : System} {owner : Side → Caller} {m : Move}

theorem alone_or_done (h : s.Parted owner) {c : Call} (hc : c ∈ s.calls) :
    c.Alone (s.state.cursors c.side) ∨ ∃ claim, c.phase = .done claim := by
  obtain ⟨side, hc⟩ := (mem_calls_iff h.callers).mp hc
  obtain ⟨rfl, -⟩ := (h.owns side).owned c hc
  exact (h.owns c.side).alone_or_done hc

theorem start_eq_head (h : s.Parted owner) {c : Call} (hc : c ∈ s.calls) {start : UInt64}
    (hphase : c.phase = .loadOpposing start) : start = (s.state.cursors c.side).head := by
  have halone := h.alone_or_done hc
  rw [Call.Alone, hphase] at halone
  rcases halone with halone | ⟨claim, hdone⟩
  · exact halone.2
  · cases hdone

theorem claim_start_eq_head (h : s.Parted owner) {c : Call} (hc : c ∈ s.calls) {claim : Claim}
    (hphase : c.phase = .exchange claim) : claim.start = (s.state.cursors c.side).head := by
  have halone := h.alone_or_done hc
  rw [Call.Alone, hphase] at halone
  rcases halone with halone | ⟨claim, hdone⟩
  · exact halone.2
  · cases hdone

theorem side_eq (h : s.Parted owner) {side : Side} {k : Nat} {c : Call}
    (hc : s.call? side.caller k = some c) : c.side = side := by
  rw [call?, h.get_caller, Option.bind_some] at hc
  exact ((h.owns side).owned c (Caller.mem_calls_of_call? hc)).1

theorem covered_act {shape : Shape} (hshape : s.shape = shape) (h : s.Parted owner) {i k : Nat}
    {last : Option RingState} (hcovered : ∀ c, s.call? i k = some c → c.Covered shape last s.state)
    {c : Call} (hc : (s.act m).call? i k = some c) :
    c.Covered shape (if s.loads i k m then some s.state else last) (s.act m).state := by
  subst hshape
  have hhorizon := h.horizon_le_act m
  exact numbered_act (fun _ _ _ => .of_before) (fun c hc => hc.mono (hhorizon c.side))
    (fun c hmem hc => hc.step h.consistent (h.progress c hmem) fun _ => h.start_eq_head hmem)
    hcovered hc

end System.Parted

/-! ### What a caller has moved -/

namespace Call

variable {c : Call}

theorem copied_eq_zero (h : c.claim? = none) : c.copied = 0 := by
  unfold claim? at h
  unfold copied
  split <;> simp_all

theorem moved_le_copied (c : Call) : c.moved ≤ c.copied := by
  unfold moved
  split
  · rename_i claim hphase
    rw [copied, hphase]
  · exact Nat.zero_le _

/-- A call that is done has moved and copied all it had reserved. -/
theorem moved_eq_reserved (h : ∃ claim, c.phase = .done claim) :
    c.moved = c.reserved ∧ c.copied = c.reserved := by
  obtain ⟨claim, hphase⟩ := h
  cases claim <;> simp only [moved, copied, reserved, claim?, hphase] <;> exact ⟨rfl, rfl⟩

end Call

theorem Consistent.copied_le_reserved {shape : Shape} {s : RingState} {calls : List Call}
    {c : Call} (h : Consistent shape s calls) (hc : c ∈ calls) : c.copied ≤ c.reserved := by
  cases hclaim : c.claim? with
  | none =>
      rw [Call.copied_eq_zero hclaim]
      exact Nat.zero_le _
  | some claim =>
      rw [Call.reserved, hclaim, Option.map_some, Option.getD_some]
      exact h.copied_le hc hclaim

/-- The records that the first `count` elements of each call make, for calls one after another. -/
def transcript (count : Call → Nat) (width : Nat) (calls : List Call) : List (List UInt8) :=
  calls.flatMap fun c => (List.range (count c)).map (recordAt width c.buffer)

theorem length_transcript (count : Call → Nat) (width : Nat) (calls : List Call) :
    (transcript count width calls).length = (calls.map count).sum := by
  simp only [transcript, List.length_flatMap, List.length_map, List.length_range]

/-- Where the claims of calls tile and all calls but the last are counted in full, the records
stand in the order of their positions. -/
theorem carries_of_transcript {count : Call → Nat} {width : Nat} {calls : List Call}
    (hcount : ∀ c ∈ calls, count c ≤ c.copied)
    (hfull : ∀ c ∈ calls.dropLast, count c = c.reserved) {a b : Nat}
    (htile : Tile a (calls.filterMap Call.claim?) b) {p : Nat} {x : List UInt8}
    (h : (transcript count width calls)[p]? = some x) :
    ∃ c ∈ calls, c.Carries width (a + p) x := by
  induction calls generalizing a p with
  | nil => cases h
  | cons c calls ih =>
      have hlen : ((List.range (count c)).map (recordAt width c.buffer)).length = count c := by
        rw [List.length_map, List.length_range]
      rw [transcript, List.flatMap_cons, ← transcript] at h
      have hcopied := hcount c List.mem_cons_self
      rcases Nat.lt_or_ge p (count c) with hp | hp
      -- The record is one of the first call.
      · rw [List.getElem?_append_left (hlen.symm ▸ hp), List.getElem?_map,
          List.getElem?_range hp, Option.map_some] at h
        obtain rfl := Option.some.inj h
        cases hclaim : c.claim? with
        | none =>
            rw [Call.copied_eq_zero hclaim] at hcopied
            omega
        | some claim =>
            rw [List.filterMap_cons_some hclaim] at htile
            cases htile with
            | cons start _ _ =>
                exact ⟨c, List.mem_cons_self, claim, hclaim, p, by omega, by rw [start], rfl⟩
      -- The first call is counted in full, and the record is one of a later call.
      · rw [List.getElem?_append_right (hlen.symm ▸ hp), hlen] at h
        have hne : calls ≠ [] := by
          rintro rfl
          cases h
        rw [List.dropLast_cons_of_ne_nil hne] at hfull
        have hfirst := hfull c List.mem_cons_self
        have ih := fun {a} => ih (fun d hd => hcount d (List.mem_cons_of_mem _ hd))
          (fun d hd => hfull d (List.mem_cons_of_mem _ hd)) (a := a) (p := p - count c)
        cases hclaim : c.claim? with
        | none =>
            rw [List.filterMap_cons_none hclaim] at htile
            rw [Call.reserved, hclaim, Option.map_none, Option.getD_none] at hfirst
            obtain ⟨d, hd, hcarries⟩ := ih htile h
            rw [hfirst, Nat.sub_zero] at hcarries
            exact ⟨d, List.mem_cons_of_mem _ hd, hcarries⟩
        | some claim =>
            rw [List.filterMap_cons_some hclaim] at htile
            rw [Call.reserved, hclaim, Option.map_some, Option.getD_some] at hfirst
            cases htile with
            | cons start nonempty rest =>
                obtain ⟨d, hd, hcarries⟩ := ih rest h
                rw [Claim.toNat_len (by omega)] at hfirst
                have hpos : claim.stop.toNat + (p - count c) = a + p := by omega
                exact ⟨d, List.mem_cons_of_mem _ hd, hpos ▸ hcarries⟩

theorem sum_reserved (calls : List Call) : (calls.map Call.reserved).sum =
    ((calls.filterMap Call.claim?).map fun claim => claim.len.toNat).sum := by
  induction calls with
  | nil => rfl
  | cons c calls ih =>
      cases hclaim : c.claim? with
      | none =>
          rw [List.filterMap_cons_none hclaim, List.map_cons, List.sum_cons, ih, Call.reserved,
            hclaim, Option.map_none, Option.getD_none, Nat.zero_add]
      | some claim =>
          rw [List.filterMap_cons_some hclaim, List.map_cons, List.sum_cons, ih, List.map_cons,
            List.sum_cons, Call.reserved, hclaim, Option.map_some, Option.getD_some]

namespace Caller.Owns

variable {side : Side} {k : Cursors} {c : Caller}

/-- The calls among the works before the newest are done. -/
theorem done_of_older (h : c.Owns side k) :
    ∀ d ∈ Caller.calls ⟨c.works.tail⟩, ∃ claim, d.phase = .done claim := by
  intro d hd
  obtain ⟨work, hwork, hcall⟩ := List.mem_filterMap.mp hd
  cases work with
  | transfer e =>
      cases hcall
      exact Work.phase_of_isDone (h.done _ hwork)
  | probe => cases hcall

/-- All calls but the newest are done. -/
theorem done_of_tail (h : c.Owns side k) : ∀ d ∈ c.calls.tail, ∃ claim, d.phase = .done claim := by
  intro d hd
  refine h.done_of_older d ?_
  obtain ⟨works⟩ := c
  rcases works with - | ⟨e | probe, works⟩
  · cases hd
  · exact hd
  · exact List.mem_of_mem_tail hd

/-- The head counts what the calls have reserved. -/
theorem sum_reserved (h : c.Owns side k) : (c.calls.map Call.reserved).sum = k.head.toNat := by
  rw [BurstRing.sum_reserved, ← h.tile.sum_len, Nat.zero_add, List.filterMap_reverse,
    List.map_reverse, List.sum_reverse]

/-- The tail counts what the calls have moved. -/
theorem sum_moved (h : c.Owns side k) : (c.calls.map Call.moved).sum = k.tail.toNat := by
  have hreserved := h.sum_reserved
  have hnewest := h.newest
  have htile := h.tile
  have holder : (Caller.calls ⟨c.works.tail⟩).map Call.moved =
      (Caller.calls ⟨c.works.tail⟩).map Call.reserved :=
    List.map_congr_left fun d hd => (Call.moved_eq_reserved (h.done_of_older d hd)).1
  obtain ⟨works⟩ := c
  rcases works with - | ⟨d | probe, works⟩
  · rw [hnewest]
    exact hreserved
  · -- What the newest call has reserved and not moved lies between tail and head.
    have hgap : d.moved + k.head.toNat = d.reserved + k.tail.toNat := by
      simp only [List.head?_cons, Call.Alone] at hnewest
      cases hphase : d.phase with
      | loadHead | loadOpposing | exchange =>
          simp only [hphase] at hnewest
          simp [Call.moved, Call.reserved, Call.claim?, hphase, hnewest]
      | copy claim copied | publish claim =>
          simp only [hphase] at hnewest
          have hbounds := htile.bounds (c := claim) (List.mem_filterMap.mpr ⟨d,
            List.mem_reverse.mpr List.mem_cons_self, by rw [Call.claim?, hphase]⟩)
          simp only [Call.moved, Call.reserved, Call.claim?, hphase, Option.map_some,
            Option.getD_some, Claim.toNat_len hbounds.2.1.le, hnewest.1, hnewest.2]
          omega
      | moveTail => simp only [hphase] at hnewest
      | broken => simp only [hphase] at hnewest
      | done claim =>
          simp only [hphase] at hnewest
          rw [(Call.moved_eq_reserved ⟨claim, hphase⟩).1, hnewest]
    rw [Caller.calls_transfer, List.map_cons, List.sum_cons] at hreserved ⊢
    rw [List.tail_cons] at holder
    rw [holder]
    omega
  · rw [List.head?_cons] at hnewest
    rw [hnewest]
    exact (congrArg List.sum holder).trans hreserved

end Caller.Owns

/-! ### Runs of both endpoints -/

/-- A call on an endpoint; the consumer's buffer takes what is fetched. -/
inductive EndpointCall where
  | handles (buffer : Array UInt64) (behavior : Behavior)
  | elements (buffer : Array UInt8) (elementSize : Nat) (behavior : Behavior)
  deriving Repr

/-- The transfer that the endpoint of a side makes for a call, unless the call is refused. -/
def EndpointCall.job? (shape : Shape) (side : Side) : EndpointCall → Option Job
  | .handles buffer behavior =>
    match Ring.checkHandles shape buffer.size with
    | .error _ => none
    | .ok () => some (.transfer side behavior .owned buffer.size.toUInt64 (Handle.pack buffer))
  | .elements buffer elementSize behavior =>
    match Ring.checkElements shape buffer.size elementSize with
    | .error _ => none
    | .ok n => some (.transfer side behavior .owned n.toUInt64 buffer)

/-- Something that the endpoint of a side does. -/
inductive EndpointMove where
  | call (side : Side) (request : EndpointCall)
  /-- Asks how many elements, or free slots, there are. -/
  | count (side : Side)
  | step (side : Side)
  deriving Repr

/-- The move as one of the caller of that side; a refused call is none. -/
def EndpointMove.move? (shape : Shape) : EndpointMove → Option Move
  | .call side request => (request.job? shape side).map (.start side.caller)
  | .count side => some (.start side.caller .count)
  | .step side => some (.step side.caller)

/-- Elements that the call is for. -/
def EndpointCall.size : EndpointCall → Nat
  | .handles buffer _ => buffer.size
  | .elements buffer elementSize _ => buffer.size / elementSize

/-- A call that is not refused begins a transfer of at least one element. -/
theorem EndpointCall.job?_eq {shape : Shape} {side : Side} {request : EndpointCall} {job : Job}
    (h : request.job? shape side = some job) : 0 < request.size ∧ ∃ behavior buffer,
      job = .transfer side behavior .owned request.size.toUInt64 buffer ∧
        request.size * shape.elementSize ≤ buffer.size := by
  cases request with
  | handles buffer behavior =>
      rw [job?] at h
      split at h
      · cases h
      · rename_i hcheck
        cases h
        have helements := Ring.checkElements_of_checkHandles hcheck
        exact ⟨Ring.checkElements_pos helements, _, _, rfl, Ring.checkElements_le helements⟩
  | elements buffer elementSize behavior =>
      rw [job?] at h
      split at h
      · cases h
      · rename_i n hcheck
        cases h
        obtain ⟨-, -, -, rfl⟩ := Ring.checkElements_eq_ok hcheck
        exact ⟨Ring.checkElements_pos hcheck, _, _, rfl, Ring.checkElements_le hcheck⟩

theorem EndpointCall.call?_of_job? {shape : Shape} {side : Side} {request : EndpointCall}
    {job : Job} (h : request.job? shape side = some job) : ∀ d ∈ job.call?, d.side = side ∧
      d.access = .owned ∧ d.wanted.toNat * shape.elementSize ≤ d.buffer.size := by
  obtain ⟨-, behavior, buffer, rfl, hle⟩ := job?_eq h
  intro d hd
  obtain rfl := Option.some.inj hd
  exact ⟨rfl, rfl, (Nat.mul_le_mul_right _ (Nat.mod_le _ _)).trans hle⟩

theorem EndpointMove.ofOwner {shape : Shape} {move : EndpointMove} {m : Move}
    (h : move.move? shape = some m) : m.OfOwner shape := by
  cases move with
  | call side request =>
      obtain ⟨job, hjob, rfl⟩ := Option.map_eq_some_iff.mp h
      exact ⟨side, rfl, EndpointCall.call?_of_job? hjob⟩
  | count side =>
      cases h
      exact ⟨side, rfl, nofun⟩
  | step side =>
      cases h
      exact ⟨side, rfl⟩

theorem EndpointMove.ofOwner_of_mem {shape : Shape} {moves : List EndpointMove} :
    ∀ m ∈ moves.filterMap (EndpointMove.move? shape), m.OfOwner shape := by
  intro m hm
  obtain ⟨move, -, hmove⟩ := List.mem_filterMap.mp hm
  exact EndpointMove.ofOwner hmove

namespace System

/-- The records of all that the producer has stored in calls that are done. -/
def stored (s : System) : List (List UInt8) :=
  ((s.callers[Side.producer.caller]?).map fun c =>
    transcript Call.moved s.shape.elementSize c.calls.reverse).getD []

/-- The records of all that the consumer has copied out. -/
def fetched (s : System) : List (List UInt8) :=
  ((s.callers[Side.consumer.caller]?).map fun c =>
    transcript Call.copied s.shape.elementSize c.calls.reverse).getD []

namespace Parted

variable {s : System} {owner : Side → Caller}

theorem stored_eq (h : s.Parted owner) : s.stored =
    transcript Call.moved s.shape.elementSize (owner .producer).calls.reverse := by
  rw [stored, h.get_caller, Option.map_some, Option.getD_some]

theorem fetched_eq (h : s.Parted owner) : s.fetched =
    transcript Call.copied s.shape.elementSize (owner .consumer).calls.reverse := by
  rw [fetched, h.get_caller, Option.map_some, Option.getD_some]

/-- What is counted of the calls of one side is carried by that side, position by position. -/
theorem carried_of_transcript (h : s.Parted owner) (side : Side) {count : Call → Nat}
    (hcount : ∀ c, count c ≤ c.copied)
    (hfull : ∀ c, (∃ claim, c.phase = .done claim) → count c = c.reserved) {p : Nat}
    {x : List UInt8}
    (hx : (transcript count s.shape.elementSize (owner side).calls.reverse)[p]? = some x) :
    Carried s.shape.elementSize side s.calls p x := by
  have howns := h.owns side
  obtain ⟨c, hc, hcarries⟩ := carries_of_transcript (fun c _ => hcount c) (fun c hc => by
    rw [List.dropLast_reverse] at hc
    exact hfull c (howns.done_of_tail c (List.mem_reverse.mp hc))) howns.tile hx
  rw [List.mem_reverse] at hc
  rw [Nat.zero_add] at hcarries
  exact ⟨c, (mem_calls_iff h.callers).mpr ⟨side, hc⟩, (howns.owned c hc).1, hcarries⟩

/-- What the consumer has fetched is the beginning of what the producer has stored. -/
theorem fetched_prefix (h : s.Parted owner) : s.fetched <+: s.stored := by
  rw [h.fetched_eq, h.stored_eq]
  refine List.prefix_iff_getElem?.mpr fun p hp => ?_
  have hfetched := h.faithful.fetched _ _ (h.carried_of_transcript .consumer (fun _ => le_rfl)
    (fun c hc => (Call.moved_eq_reserved hc).2) (List.getElem?_eq_getElem hp))
  -- The consumer has copied no further than its head, and the producer up to its tail.
  have hlen : p < (transcript Call.moved s.shape.elementSize
      (owner .producer).calls.reverse).length := by
    have hcopied : ((owner .consumer).calls.map Call.copied).sum ≤
        ((owner .consumer).calls.map Call.reserved).sum := by
      refine List.sum_le_sum fun c hc => ?_
      exact h.consistent.copied_le_reserved ((mem_calls_iff h.callers).mpr ⟨.consumer, hc⟩)
    have hhead : s.state.consumer.head.toNat ≤ s.state.producer.tail.toNat :=
      h.consistent.head_le .consumer
    rw [length_transcript, List.map_reverse, List.sum_reverse] at hp ⊢
    rw [(h.owns .consumer).sum_reserved] at hcopied
    rw [(h.owns .producer).sum_moved]
    exact Nat.lt_of_lt_of_le hp (hcopied.trans hhead)
  have hstored := h.carried_of_transcript .producer Call.moved_le_copied
    (fun c hc => (Call.moved_eq_reserved hc).1) (List.getElem?_eq_getElem hlen)
  rw [List.getElem?_eq_getElem hlen, h.consistent.carried_unique hstored hfetched]

/-- Every call of both endpoints is covered by its last load. -/
theorem covered_run {shape : Shape} {schedule : List Move}
    (hm : ∀ m ∈ schedule, m.OfOwner shape)
    (hbound : ((System.create shape 2).run schedule).claimed .producer < 2 ^ 64) {i k : Nat}
    {c : Call} (h : ((System.create shape 2).run schedule).call? i k = some c) :
    c.Covered shape (lastLoad? i k schedule (System.create shape 2))
      ((System.create shape 2).run schedule).state := by
  induction schedule using List.reverseRecOn generalizing c with
  | nil =>
      have hmem := mem_calls_of_call? h
      rw [System.run, List.foldl_nil, calls_create] at hmem
      cases hmem
  | append_singleton schedule m ih =>
      rw [run_concat] at h hbound ⊢
      have hbefore : ∀ m' ∈ schedule, m'.OfOwner shape := fun m' hm' =>
        hm m' (List.mem_append_left _ hm')
      have hbound' := (claimed_act m ((System.create shape 2).run schedule) .producer).trans_lt
        hbound
      obtain ⟨owner, hparted⟩ := (Parted.create shape).run hbefore hbound'
      rw [lastLoad?_concat]
      exact hparted.covered_act (shape_run _ _) (fun c hc => ih hbefore hbound' hc) h

end Parted

/-- **Two endpoints.**  Whatever the two endpoints of a ring are called for, and however their
steps interleave: the cursors are ordered; no call reads more than the capacity; the range that a
call is about to reserve is its share of its last reading, which says no more than could be claimed
at the moment the head is stored; and what has been fetched is the beginning of what has been
stored. -/
theorem endpoints_deliver (shape : Shape) (moves : List EndpointMove)
    (hbound : ((create shape 2).run (moves.filterMap (EndpointMove.move? shape))).claimed
      .producer < 2 ^ 64) :
    let schedule := moves.filterMap (EndpointMove.move? shape)
    let s := (create shape 2).run schedule
    (s.state.consumer.tail.toNat ≤ s.state.consumer.head.toNat ∧
      s.state.consumer.head.toNat ≤ s.state.producer.tail.toNat ∧
      s.state.producer.tail.toNat ≤ s.state.producer.head.toNat ∧
      s.state.producer.head.toNat ≤ s.state.consumer.tail.toNat + shape.capacity) ∧
    (∀ (side : Side) k c, s.call? side.caller k = some c →
      (∀ start, c.phase = .loadOpposing start →
        (Call.available shape side start (s.state.cursors side.opposite).tail).toNat ≤
          shape.capacity) ∧
      ∀ claim, c.phase = .exchange claim →
        ∃ u, lastLoad? side.caller k schedule (create shape 2) = some u ∧
          let reading := Call.available shape side claim.start (u.cursors side.opposite).tail
          claim.len = take c.wanted c.behavior reading ∧
            reading.toNat ≤ s.state.claimable shape side) ∧
    s.fetched <+: s.stored := by
  intro schedule s
  have hm : ∀ m ∈ schedule, m.OfOwner shape := EndpointMove.ofOwner_of_mem
  obtain ⟨owner, h⟩ : ∃ owner, s.Parted owner := (Parted.create shape).run hm hbound
  have hshape : s.shape = shape := shape_run schedule _
  have hcons := h.consistent
  rw [hshape] at hcons
  refine ⟨⟨(hcons.tiled .consumer).tail_le_head, hcons.head_le .consumer,
    (hcons.tiled .producer).tail_le_head, hcons.head_le .producer⟩, fun side k c hc => ?_,
    h.fetched_prefix⟩
  have hmem := mem_calls_of_call? hc
  obtain rfl : c.side = side := h.side_eq hc
  have hclaimable := hcons.claimable_eq c.side
  refine ⟨fun start hphase => ?_, fun claim hphase => ?_⟩
  · rw [h.start_eq_head hmem hphase, hcons.toNat_available_head, ← hclaimable]
    exact hcons.claimable_le c.side
  · obtain ⟨u, hlast, hlen, hle⟩ := Parted.covered_run hm hbound hc claim hphase
    rw [← h.claim_start_eq_head hmem hphase] at hclaimable
    exact ⟨u, hlast, hlen, hclaimable ▸ hle⟩

/-- Four slots for handles. -/
def fourHandles : Shape :=
  ⟨4, 8, fourSlots.capacity_pow, fourSlots.capacity_le, by decide, rfl, by decide, .checked⟩

/-- The consumer looks in too early, is refused a call and then fetches two of three handles, while
the producer has read that there is room for one more. -/
def alongside : List EndpointMove :=
  let steps (n : Nat) (side : Side) : List EndpointMove := List.replicate n (.step side)
  [.call .producer (.handles #[7, 8, 9] .exactly),
    .call .consumer (.handles #[0, 0, 0, 0, 0] .atMost)] ++ steps 3 .producer ++
    steps 2 .consumer ++ steps 5 .producer ++
    [.call .consumer (.elements (Array.replicate 24 0) 4 .exactly), .count .consumer,
      .call .producer (.handles #[10, 11] .atMost)] ++ steps 2 .consumer ++
    [.call .consumer (.elements (Array.replicate 24 0) 8 .exactly)] ++ steps 2 .producer ++
    steps 5 .consumer

theorem endpoints_deliver_alongside :
    let s := (create fourHandles 2).run (alongside.filterMap (EndpointMove.move? fourHandles))
    (s.fetched.map Handle.ofRecord = [7, 8] ∧ s.stored.map Handle.ofRecord = [7, 8, 9]) ∧
      s.fetched <+: s.stored ∧
      ∃ u, lastLoad? 0 1 (alongside.filterMap (EndpointMove.move? fourHandles))
          (create fourHandles 2) = some u ∧
        (Call.available fourHandles .producer 3 u.consumer.tail).toNat ≤
          s.state.claimable fourHandles .producer := by
  obtain ⟨-, hreadings, hprefix⟩ := endpoints_deliver fourHandles alongside (by decide +kernel)
  refine ⟨⟨by decide +kernel, by decide +kernel⟩, hprefix, ?_⟩
  obtain ⟨c, hc, heq⟩ := Option.map_eq_some_iff.mp (by decide +kernel :
    (call? ((create fourHandles 2).run (alongside.filterMap (EndpointMove.move? fourHandles)))
      0 1).map Call.phase = some (.exchange ⟨3, 4⟩))
  obtain ⟨u, hlast, -, hle⟩ := (hreadings .producer 1 c hc).2 ⟨3, 4⟩ heq
  exact ⟨u, hlast, hle⟩

end System

end BurstRing
