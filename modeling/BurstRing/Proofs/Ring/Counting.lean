import BurstRing.Proofs.Ring.Fifo
import BurstRing.Proofs.Ring.History
import Mathlib.Data.List.Induction

/-!
# A count never says too little

A count loads the consumers' tail and later the producers', and anything may happen in between.
Neither tail ever moves back, so the first of them is not above what it has become when the second
is loaded, and the difference is at least what the ring holds at that moment
(`System.counts_no_less`).  A count of zero therefore says that the ring was empty then.  It says
too much where elements were released between the loads; where no transfer was under way nothing
was, and the count is exact.

The two loads are found in the schedule: a probe only comes to be what it is by a step of its own
(`System.exists_load`).
-/

namespace BurstRing

/-- No transfer has a step left. -/
def System.IsQuiet (s : System) : Prop := ∀ c ∈ s.calls, c.isOver = true

/-- Elements that have been stored and not yet fetched. -/
def System.present (s : System) : Nat := s.moved .producer - s.moved .consumer

namespace System

variable {s : System}

/-! ### The loads of a probe -/

theorem work?_create (shape : Shape) (callers i k : Nat) :
    (create shape callers).work? i k = none := by
  rw [work?, create, Array.getElem?_replicate]
  split <;> rfl

/-- A probe that has begun to load has loaded by a step of its caller. -/
theorem exists_load {schedule : List Move} {i k : Nat} {p : Probe} (hp : p ≠ .loadConsumerTail)
    (hs : s.work? i k = none) (h : (s.run schedule).work? i k = some (.probe p)) :
    ∃ before after q, schedule = before ++ .step i :: after ∧
      (s.run before).work? i k = some (.probe q) ∧ q ≠ p ∧
        q.step s.shape (s.run before).state = p := by
  induction schedule using List.reverseRecOn with
  | nil =>
      rw [run, List.foldl_nil, hs] at h
      cases h
  | append_singleton schedule m ih =>
      have earlier : (s.run schedule).work? i k = some (.probe p) → ∃ before after q,
          schedule ++ [m] = before ++ .step i :: after ∧
            (s.run before).work? i k = some (.probe q) ∧ q ≠ p ∧
              q.step s.shape (s.run before).state = p := by
        intro h
        obtain ⟨before, after, q, rfl, hq⟩ := ih h
        exact ⟨before, after ++ [m], q, List.append_assoc .., hq⟩
      rw [run_concat] at h
      have hchange := workChange_act m (s.run schedule) h
      rw [shape_run] at hchange
      generalize hold : (s.run schedule).work? i k = old at hchange
      generalize hnew : Work.probe p = w at hchange
      generalize ((s.run schedule).act m).state = state at hchange
      cases hchange with
      | same => exact earlier (hnew ▸ hold)
      | @begin job =>
          cases job with
          | transfer => cases hnew
          | count => exact absurd (Work.probe.inj hnew) hp
      | step hm w =>
          cases w with
          | transfer => cases hnew
          | probe q =>
              have hstep : q.step s.shape (s.run schedule).state = p := (Work.probe.inj hnew).symm
              by_cases hq : q = p
              · exact earlier (hq ▸ hold)
              · exact ⟨schedule, [], q, by rw [hm], hold, hq, hstep⟩
      | spoil w =>
          cases w with
          | transfer => cases hnew
          | probe q => exact earlier (hnew ▸ hold)

/-- A count that has come to its end has loaded both tails, one after the other. -/
theorem exists_loads {shape : Shape} {callers : Nat} {schedule : List Move} {i k n : Nat}
    (h : ((create shape callers).run schedule).work? i k = some (.probe (.done n))) :
    ∃ before between after, schedule = before ++ .step i :: between ++ .step i :: after ∧
      let first := (create shape callers).run before
      let second := (create shape callers).run (before ++ .step i :: between)
      first.work? i k = some (.probe .loadConsumerTail) ∧
      second.work? i k = some (.probe (.loadProducerTail first.state.consumer.tail)) ∧
      RingState.count shape first.state.consumer.tail second.state.producer.tail = n := by
  have hnone := work?_create shape callers i k
  obtain ⟨earlier, after, q, rfl, hq, hne, hstep⟩ := exists_load (by nofun) hnone h
  cases q with
  | loadConsumerTail => cases hstep
  | done => exact absurd hstep hne
  | loadProducerTail tail =>
      obtain ⟨before, between, q, rfl, hq', hne', hstep'⟩ := exists_load (by nofun) hnone hq
      cases q with
      | loadProducerTail => cases hstep'
      | done => cases hstep'
      | loadConsumerTail =>
          obtain rfl := Probe.loadProducerTail.inj hstep'
          exact ⟨before, between, after, rfl, hq', hq, Probe.done.inj hstep⟩

/-! ### What the ring holds -/

theorem Orderly.present_eq (h : s.Orderly) :
    s.present = s.state.producer.tail.toNat - s.state.consumer.tail.toNat := by
  rw [present, h.moved_eq, h.moved_eq]
  rfl

theorem Orderly.present_le (h : s.Orderly) : s.present ≤ s.shape.capacity := by
  have htail := (h.consistent.tiled .producer).tail_le_head
  have hhead := h.consistent.head_le .producer
  rw [h.present_eq]
  simp only [RingState.cursors, RingState.horizon] at htail hhead
  omega

/-- While no transfer has a step left, no move changes the ring. -/
theorem IsQuiet.state_act (h : s.IsQuiet) (m : Move) : (s.act m).state = s.state := by
  obtain ⟨-, before, after, hb, -, hchange⟩ := change_act m s
  generalize (s.act m).state = state at hchange
  cases hchange with
  | none => rfl
  | begin => rfl
  | step _ c rest =>
      rw [Call.step_of_isOver _ _ (h c (hb.mem_iff.mpr List.mem_cons_self))]
  | spoil => rfl

theorem state_run_of_quiet {schedule : List Move}
    (h : ∀ before m after, schedule = before ++ m :: after → (s.run before).IsQuiet) :
    (s.run schedule).state = s.state := by
  induction schedule using List.reverseRecOn with
  | nil => rfl
  | append_singleton schedule m ih =>
      rw [run_concat, (h schedule m [] rfl).state_act]
      refine ih fun before m' after heq => h before m' (after ++ [m]) ?_
      rw [heq, List.append_assoc, List.cons_append]

/-- **A count never says too little.**  Every count that has come to its end has loaded the
consumers' tail and, after anything that may have happened in between, the producers'.  The
difference of the two is one of numbers, without a wrap, and the count is that or the capacity.  At
the moment of the second load the ring holds no more than was counted, and nothing if the count is
zero; and it holds just what was counted if no transfer was under way since the first load. -/
theorem counts_no_less (shape : Shape) (callers : Nat) (schedule : List Move)
    (hshared : ∀ m ∈ schedule, m.IsShared)
    (hbound : ((create shape callers).run schedule).claimed .producer < 2 ^ 64) (i k n : Nat)
    (hcount : ((create shape callers).run schedule).work? i k = some (.probe (.done n))) :
    ∃ before between after, schedule = before ++ .step i :: between ++ .step i :: after ∧
      let first := (create shape callers).run before
      let second := (create shape callers).run (before ++ .step i :: between)
      first.work? i k = some (.probe .loadConsumerTail) ∧
      second.work? i k = some (.probe (.loadProducerTail first.state.consumer.tail)) ∧
      first.state.consumer.tail.toNat ≤ second.state.producer.tail.toNat ∧
      n = min (second.state.producer.tail.toNat - first.state.consumer.tail.toNat)
        shape.capacity ∧
      second.moved .consumer ≤ second.moved .producer ∧ second.present ≤ n ∧
      (n = 0 → second.moved .producer = second.moved .consumer) ∧
      ((∀ earlier later, Move.step i :: between = earlier ++ later → (first.run earlier).IsQuiet) →
        n = second.present) := by
  obtain ⟨before, between, after, hsplit, hfirst, hsecond, hn⟩ := exists_loads hcount
  refine ⟨before, between, after, hsplit, ?_⟩
  intro first second
  have hrun : second = first.run (.step i :: between) := List.foldl_append ..
  have hlater : (create shape callers).run schedule = second.run (.step i :: after) := by
    rw [hsplit]
    exact List.foldl_append ..
  rw [hlater] at hbound
  have hbound₂ : second.claimed .producer < 2 ^ 64 := (claimed_run _ second _).trans_lt hbound
  have hbound₁ : (first.run (.step i :: between)).claimed .producer < 2 ^ 64 := hrun ▸ hbound₂
  have hshared' : ∀ m ∈ before ++ Move.step i :: between, m.IsShared :=
    fun m hm => hshared m (hsplit ▸ List.mem_append_left _ hm)
  have hshared₂ : ∀ m ∈ Move.step i :: between, m.IsShared :=
    fun m hm => hshared' m (List.mem_append_right _ hm)
  have ho₁ : first.Orderly :=
    (orderly_create shape callers).run (fun m hm => hshared' m (List.mem_append_left _ hm))
      ((claimed_run _ first _).trans_lt hbound₁)
  have ho₂ : second.Orderly := hrun ▸ ho₁.run hshared₂ hbound₁
  have hcapacity : second.shape.capacity = shape.capacity :=
    congrArg Shape.capacity (shape_run (before ++ .step i :: between) (create shape callers))
  -- The consumers' tail has only moved forward since it was loaded.
  have hmono := ho₁.horizon_le_run hshared₂ hbound₁ .producer
  rw [← hrun] at hmono
  have hloaded : first.state.consumer.tail.toNat ≤ second.state.consumer.tail.toNat :=
    Nat.le_of_add_le_add_right hmono
  have htails := ho₂.consistent.tail_le_tail
  have hpresent := ho₂.present_eq
  have hle := ho₂.present_le
  rw [hcapacity] at hle
  rw [RingState.count, UInt64.toNat_sub_of_le _ _
    (UInt64.le_iff_toNat_le.mpr (hloaded.trans htails))] at hn
  refine ⟨hfirst, hsecond, hloaded.trans htails, hn.symm, ?_, by omega, fun hzero => ?_,
    fun hquiet => ?_⟩
  · rw [ho₂.moved_eq, ho₂.moved_eq]
    exact htails
  · rw [ho₂.moved_eq, ho₂.moved_eq]
    simp only [RingState.cursors]
    omega
  · have hstate : second.state = first.state := by
      rw [hrun]
      exact state_run_of_quiet fun earlier m later heq => hquiet earlier (m :: later) heq
    rw [hstate] at hpresent hn
    omega

/-- Three elements are stored; between the loads of a count two of them are fetched and two more are
stored. -/
def overcounted : List Move :=
  let put (n : UInt64) : Job :=
    .transfer .producer .exactly (.shared .multi) n (Array.replicate (4 * n.toNat) 7)
  let get : Job := .transfer .consumer .atMost (.shared .single) 2 (Array.replicate 8 0)
  let steps (n caller : Nat) : List Move := List.replicate n (.step caller)
  Move.start 0 (put 3) :: steps 9 0 ++ [.start 2 .count, .step 2] ++
    Move.start 1 get :: steps 7 1 ++ Move.start 0 (put 2) :: steps 8 0 ++ [.step 2]

theorem counts_no_less_overcounted :
    ((create fourSlots 3).run overcounted).work? 2 0 = some (.probe (.done 4)) ∧
    ((create fourSlots 3).run overcounted).present = 3 ∧
    ∃ before between after, overcounted = before ++ .step 2 :: between ++ .step 2 :: after ∧
      ((create fourSlots 3).run (before ++ .step 2 :: between)).present ≤ 4 := by
  have hcount : ((create fourSlots 3).run overcounted).work? 2 0 = some (.probe (.done 4)) := by
    cbv
  obtain ⟨before, between, after, hsplit, -, -, -, -, -, hle, -⟩ :=
    counts_no_less fourSlots 3 overcounted (by decide) (by decide +kernel) 2 0 4 hcount
  exact ⟨hcount, by decide +kernel, before, between, after, hsplit, hle⟩

end System

end BurstRing
