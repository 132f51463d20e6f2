import BurstRing.Proofs.Ring.Order

/-!
# Slots are exclusive

Any number of callers drive both sides of one ring beside each other, in any mix of modes, and
their atomic steps come in any order.  Then the four cursors stay ordered, the ranges reserved and
not published tile what lies between tail and head on each side, those of broken calls included,
and no slot belongs to two such ranges (`System.cursors_ordered`).

The only thing asked of a run is that producers claim fewer than `2 ^ 64` elements in all, so that
a cursor never comes back to a value that a sleeping caller still remembers.
-/

namespace BurstRing

/-- The move begins no transfer that takes itself for the only one on its side. -/
def Move.IsShared (m : Move) : Prop := ∀ c ∈ m.call?, c.access ≠ .owned

instance (m : Move) : Decidable m.IsShared := by
  unfold Move.IsShared
  infer_instance

theorem Move.phase_of_call? {m : Move} {c : Call} (h : m.call? = some c) :
    c.phase = .loadHead := by
  cases m with
  | start i job =>
      cases job with
      | transfer => cases h; rfl
      | count => cases h
  | step => cases h
  | spoil => cases h

theorem Consistent.change {shape : Shape} {m : Move} {s s' : RingState} {calls calls' : List Call}
    (h : Consistent shape s calls)
    (hstep : ∀ c ∈ calls, c.Progress shape s (c.step shape s).1 (c.step shape s).2)
    (hc : System.Change shape m s calls s' calls')
    (hbound : claimedOn .producer calls' < 2 ^ 64) : Consistent shape s' calls' := by
  cases hc with
  | none => exact h
  | begin _ _ hm => exact h.begin (Move.phase_of_call? hm)
  | step _ c rest => exact h.progress (hstep c List.mem_cons_self) hbound
  | spoil _ c rest => exact h.progress (c.progress_spoil _ _) hbound

theorem System.Change.access {shape : Shape} {m : Move} {s s' : RingState}
    {calls calls' : List Call} (hc : System.Change shape m s calls s' calls') (hm : m.IsShared)
    (h : ∀ c ∈ calls, c.access ≠ .owned) : ∀ c ∈ calls', c.access ≠ .owned := by
  intro d hd
  cases hc with
  | none => exact h d hd
  | begin _ _ hcall =>
      rcases List.mem_cons.mp hd with rfl | hd
      · exact hm d hcall
      · exact h d hd
  | step _ c rest =>
      rcases List.mem_cons.mp hd with rfl | hd
      · rw [Call.access_step]
        exact h c List.mem_cons_self
      · exact h d (List.mem_cons_of_mem _ hd)
  | spoil _ c rest =>
      rcases List.mem_cons.mp hd with rfl | hd
      · rw [Call.access_spoil]
        exact h c List.mem_cons_self
      · exact h d (List.mem_cons_of_mem _ hd)

namespace System

/-- No call takes itself for the only one on its side, and all of them are consistent. -/
structure Orderly (s : System) : Prop where
  shared : ∀ c ∈ s.calls, c.access ≠ .owned
  consistent : Consistent s.shape s.state s.calls

theorem calls_create (shape : Shape) (callers : Nat) : (create shape callers).calls = [] := by
  simp only [calls, create, Array.toList_replicate, List.flatMap_eq_nil_iff]
  intro c hc
  rw [List.eq_of_mem_replicate hc]
  rfl

theorem orderly_create (shape : Shape) (callers : Nat) : (create shape callers).Orderly where
  shared := by
    rw [calls_create]
    exact fun c hc => absurd hc List.not_mem_nil
  consistent := by
    rw [calls_create]
    exact .initial shape

theorem consistent_act {m : Move} {s : System} (h : Consistent s.shape s.state s.calls)
    (hstep : ∀ c ∈ s.calls,
      c.Progress s.shape s.state (c.step s.shape s.state).1 (c.step s.shape s.state).2)
    (hbound : (s.act m).claimed .producer < 2 ^ 64) :
    Consistent (s.act m).shape (s.act m).state (s.act m).calls := by
  obtain ⟨hshape, before, after, hb, ha, hc⟩ := change_act m s
  rw [hshape]
  exact ((h.perm hb).change (fun c hc => hstep c (hb.mem_iff.mpr hc)) hc
    (claimedOn_perm ha ▸ hbound)).perm ha.symm

/-- No move takes back what a side may claim. -/
theorem horizon_le_act {s : System} (h : Consistent s.shape s.state s.calls)
    (hstep : ∀ c ∈ s.calls,
      c.Progress s.shape s.state (c.step s.shape s.state).1 (c.step s.shape s.state).2)
    (m : Move) (side : Side) :
    s.state.horizon s.shape side ≤ (s.act m).state.horizon s.shape side := by
  obtain ⟨-, before, after, hb, -, hchange⟩ := change_act m s
  have hcons := h.perm hb
  have hstep := fun c hc => hstep c (hb.mem_iff.mpr hc)
  generalize (s.act m).state = state at hchange
  cases hchange with
  | none => exact Nat.le_refl _
  | begin => exact Nat.le_refl _
  | step _ c rest => exact (hstep c List.mem_cons_self).horizon_le hcons side
  | spoil => exact Nat.le_refl _

theorem Orderly.progress {s : System} (h : s.Orderly) : ∀ c ∈ s.calls,
    c.Progress s.shape s.state (c.step s.shape s.state).1 (c.step s.shape s.state).2 :=
  fun c hc => Call.progress_shared _ _ (h.shared c hc)

theorem Orderly.act {m : Move} {s : System} (h : s.Orderly) (hm : m.IsShared)
    (hbound : (s.act m).claimed .producer < 2 ^ 64) : (s.act m).Orderly := by
  refine ⟨?_, consistent_act h.consistent h.progress hbound⟩
  obtain ⟨-, before, after, hb, ha, hc⟩ := change_act m s
  have hshared : ∀ c ∈ before, c.access ≠ .owned := fun c hc => h.shared c (hb.mem_iff.mpr hc)
  exact fun c hmem => hc.access hm hshared c (ha.mem_iff.mp hmem)

theorem Orderly.run {schedule : List Move} {s : System} (h : s.Orderly)
    (hm : ∀ m ∈ schedule, m.IsShared) (hbound : (s.run schedule).claimed .producer < 2 ^ 64) :
    (s.run schedule).Orderly :=
  run_invariant (fun _ _ hm hbound h => h.act hm hbound) hm hbound h

theorem shape_run (schedule : List Move) (s : System) : (s.run schedule).shape = s.shape := by
  induction schedule generalizing s with
  | nil => rfl
  | cons m schedule ih => exact (ih (s.act m)).trans (change_act m s).1

theorem Orderly.horizon_le_run {schedule : List Move} {s : System} (h : s.Orderly)
    (hm : ∀ m ∈ schedule, m.IsShared) (hbound : (s.run schedule).claimed .producer < 2 ^ 64)
    (side : Side) : s.state.horizon s.shape side ≤ (s.run schedule).state.horizon s.shape side := by
  have hact : ∀ (m : Move) (t : System), m.IsShared → (t.act m).claimed .producer < 2 ^ 64 →
      t.Orderly ∧ t.shape = s.shape ∧ s.state.horizon s.shape side ≤ t.state.horizon s.shape side →
      (t.act m).Orderly ∧ (t.act m).shape = s.shape ∧
        s.state.horizon s.shape side ≤ (t.act m).state.horizon s.shape side := by
    rintro m t hm hb ⟨ht, hshape, hle⟩
    have hnext := horizon_le_act ht.consistent ht.progress m side
    rw [hshape] at hnext
    exact ⟨ht.act hm hb, (change_act m t).1.trans hshape, hle.trans hnext⟩
  exact (run_invariant hact hm hbound ⟨h, rfl, Nat.le_refl _⟩).2.2

/-- The claims held on one side. -/
def held (s : System) (side : Side) : List Claim := claimsOn side Call.held? s.calls

/-- **Order and exclusion.**  In every state of every run of shared calls the cursors are ordered,
the held claims of each side tile what lies between its tail and its head, and no slot belongs to
two held claims, whether on one side or on both. -/
theorem cursors_ordered (shape : Shape) (callers : Nat) (schedule : List Move)
    (hshared : ∀ m ∈ schedule, m.IsShared)
    (hbound : ((create shape callers).run schedule).claimed .producer < 2 ^ 64) :
    let s := (create shape callers).run schedule
    (s.state.consumer.tail.toNat ≤ s.state.consumer.head.toNat ∧
      s.state.consumer.head.toNat ≤ s.state.producer.tail.toNat ∧
      s.state.producer.tail.toNat ≤ s.state.producer.head.toNat ∧
      s.state.producer.head.toNat ≤ s.state.consumer.tail.toNat + shape.capacity) ∧
    (∀ side, (s.held side).Pairwise Claim.Apart ∧ ∀ p, (∃ c ∈ s.held side, c.Covers p) ↔
      (s.state.cursors side).tail.toNat ≤ p ∧ p < (s.state.cursors side).head.toNat) ∧
    (s.calls.filterMap Call.held?).Pairwise fun a b => ∀ p q, a.Covers p → b.Covers q →
      p % shape.capacity ≠ q % shape.capacity := by
  intro s
  have h : Consistent s.shape s.state s.calls :=
    ((orderly_create shape callers).run hshared hbound).consistent
  rw [shape_run] at h
  refine ⟨⟨(h.tiled .consumer).tail_le_head, h.head_le .consumer,
    (h.tiled .producer).tail_le_head, h.head_le .producer⟩, fun side => ?_, h.held_slots_ne⟩
  exact ⟨(h.tiled side).held_apart, (h.tiled side).held_covers⟩

/-- Four slots of four bytes. -/
def fourSlots : Shape := ⟨4, 4, rfl, by decide, by decide, rfl, by decide, .checked⟩

/-- Two producers beside each other and one that is broken, all with claims at once; then the first
publishes, and a consumer claims. -/
def overlap : List Move :=
  let put (mode : SyncMode) (n : UInt64) : Job :=
    .transfer .producer .atMost (.shared mode) n (Array.replicate (4 * n.toNat) 7)
  let begun : List Move :=
    [.start 0 (put .multi 2), .start 1 (put .multi 1), .start 2 (put .single 3), .step 0, .step 1]
  let steps (n caller : Nat) : List Move := List.replicate n (.step caller)
  let fetch : Move :=
    .start 3 (.transfer .consumer .atMost (.shared .single) 5 (Array.replicate 20 0))
  begun ++ steps 2 0 ++ steps 4 1 ++ Move.spoil 1 :: steps 3 1 ++ steps 6 2 ++ steps 5 0 ++
    fetch :: steps 3 3

theorem cursors_ordered_overlap :
    ((run overlap (create fourSlots 4)).held .producer = [⟨2, 3⟩, ⟨3, 4⟩] ∧
      (run overlap (create fourSlots 4)).held .consumer = [⟨0, 2⟩]) ∧
    ((run overlap (create fourSlots 4)).calls.filterMap Call.held?).Pairwise fun a b =>
      ∀ p q, a.Covers p → b.Covers q → p % 4 ≠ q % 4 := by
  have h := cursors_ordered fourSlots 4 overlap (by decide +kernel) (by decide +kernel)
  exact ⟨by decide +kernel, h.2.2⟩

end System

end BurstRing
