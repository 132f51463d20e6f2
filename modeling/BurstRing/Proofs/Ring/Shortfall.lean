import BurstRing.Proofs.Ring.History
import Mathlib.Data.List.Induction

/-!
# No call falls short without a reason

A call that moves fewer elements than it was asked for has read, in its last load of the tail
across, that its side could not claim as many at that moment (`System.shortfall_justified`).

The reading is taken against a head that may have moved on since it was loaded.  Then it says too
much, never too little (`Consistent.claimable_le_available`): a consumer's head only gets closer to
the producers' tail, and so does a producer's to its horizon, until the consumers' tail passes the
head that was loaded; from there on the reading is above the capacity, and it is taken again.  A
reading that says too much may lead to an exchange, but that exchange is lost.  So a call that ends
has taken its share of what was claimable when it last read (`Call.Backed`).

A reading above the capacity is seen as such only while it does not wrap.  This is why the elements
claimed are counted on both sides here: with `2 ^ 64` of them counted for the producers alone, a
caller could sleep until the tail across is almost `2 ^ 64` ahead of the head it has loaded.
-/

namespace BurstRing

theorem Behavior.share_mono (behavior : Behavior) (wanted : Nat) {a b : Nat} (h : a ≤ b) :
    behavior.share wanted a ≤ behavior.share wanted b := by
  cases behavior with
  | exactly => simp only [share]; split <;> split <;> omega
  | atMost => simp only [share]; omega

namespace Consistent

variable {shape : Shape} {s : RingState} {calls : List Call}

theorem claimable_eq (h : Consistent shape s calls) (side : Side) :
    s.claimable shape side = s.horizon shape side - (s.cursors side).head.toNat := by
  have htail := h.consumer_tail_le side
  have hhead := h.head_le side
  cases side with
  | producer =>
      simp only [RingState.cursors, RingState.horizon] at htail hhead ⊢
      rw [RingState.claimable, UInt64.toNat_sub_of_le _ _ (UInt64.le_iff_toNat_le.mpr htail)]
      omega
  | consumer => exact UInt64.toNat_sub_of_le _ _ (UInt64.le_iff_toNat_le.mpr hhead)

/-- A reading against the head says what lies between the head and the horizon. -/
theorem toNat_available_head (h : Consistent shape s calls) (side : Side) :
    (Call.available shape side (s.cursors side).head (s.cursors side.opposite).tail).toNat =
      s.horizon shape side - (s.cursors side).head.toNat :=
  Call.toNat_available (h.consumer_tail_le side) (h.head_le side)

/-- A reading against the head as it stands tells what is claimable. -/
theorem toNat_available_eq (h : Consistent shape s calls) (side : Side) :
    (Call.available shape side (s.cursors side).head (s.cursors side.opposite).tail).toNat =
      s.claimable shape side :=
  (h.toNat_available_head side).trans (h.claimable_eq side).symm

theorem claimable_le (h : Consistent shape s calls) (side : Side) :
    s.claimable shape side ≤ shape.capacity := by
  rw [h.claimable_eq]
  have htail := h.consumer_tail_le side
  have hhead := h.head_le .producer
  have hpublished := (h.tiled .producer).tail_le_head
  cases side <;> simp only [RingState.horizon, RingState.cursors] at * <;> omega

/-- An exchange at the head claims no more than is claimable. -/
theorem len_le_claimable (h : Consistent shape s calls) {c : Call} (hc : c ∈ calls)
    {claim : Claim} (hphase : c.phase = .exchange claim)
    (hhead : (s.cursors c.side).head = claim.start) :
    claim.len.toNat ≤ s.claimable shape c.side := by
  have hsound := h.sound c hc
  simp only [Call.Sound, hphase] at hsound
  have hfit := hsound.2.2.2 (by rw [hhead])
  rw [h.claimable_eq, hhead]
  omega

/-- A reading within the capacity never says less than there is. -/
theorem claimable_le_available (h : Consistent shape s calls) {side : Side} {start : UInt64}
    (hbound : s.producer.head.toNat + shape.capacity < 2 ^ 64)
    (hstart : start.toNat ≤ (s.cursors side).head.toNat)
    (hlimit : (Call.available shape side start (s.cursors side.opposite).tail).toNat ≤
      shape.capacity) :
    s.claimable shape side ≤
      (Call.available shape side start (s.cursors side.opposite).tail).toNat := by
  have hhead := h.head_le side
  rw [h.claimable_eq]
  by_cases htail : s.consumer.tail.toNat ≤ start.toNat
  · rw [Call.toNat_available htail (by omega)]
    omega
  · cases side with
    | producer =>
        -- The consumers' tail has passed the head that was loaded.
        exfalso
        have hle := h.consumer_tail_le .producer
        simp only [RingState.cursors] at hle
        simp only [Call.available, Side.opposite, RingState.cursors] at htail hlimit
        rw [UInt64.toNat_sub, UInt64.toNat_sub, Shape.toNat_capacity] at hlimit
        omega
    | consumer =>
        simp only [Call.available, Side.opposite, RingState.cursors, RingState.horizon]
          at hstart hhead ⊢
        rw [UInt64.toNat_sub_of_le _ _ (UInt64.le_iff_toNat_le.mpr (hstart.trans hhead))]
        omega

end Consistent

namespace Call

/-- A shared call ends with nothing on a reading within the capacity that it takes nothing of. -/
theorem decide_eq_done {shape : Shape} {c : Call} {mode : SyncMode} {start tail : UInt64}
    (haccess : c.access = .shared mode) (h : c.decide shape start tail = .done none) :
    (available shape c.side start tail).toNat ≤ shape.capacity ∧
      take c.wanted c.behavior (available shape c.side start tail) = 0 := by
  unfold Call.decide at h
  split at h
  · cases h
  · rename_i hjudge
    unfold judge at hjudge
    split at hjudge
    · cases hjudge
    · rename_i hlimit
      dsimp only at hjudge
      split at hjudge
      · rename_i hnone
        refine ⟨?_, hnone⟩
        rw [haccess, limit, Option.any_some, decide_eq_true_eq, UInt64.lt_iff_toNat_lt,
          Shape.toNat_capacity] at hlimit
        exact Nat.not_lt.mp hlimit
      · cases hjudge
  · cases h

/-- An exchange beside others is granted only where the head still is what was loaded. -/
theorem head_eq_of_copy {shape : Shape} {s : RingState} {c : Call} {claim : Claim}
    (haccess : c.access ≠ .owned) (hphase : c.phase = .exchange claim)
    (h : (c.step shape s).2.phase = .copy claim 0) :
    (s.cursors c.side).head = claim.start := by
  cases hmode : c.access with
  | owned => exact absurd hmode haccess
  | shared mode =>
      by_contra hne
      simp only [Call.step, hphase, Call.reserve, hmode, Cursors.exchange, if_neg hne] at h
      cases mode <;> cases h

/-- Positions that the call has reserved. -/
def reserved (c : Call) : Nat := (c.claim?.map (·.len.toNat)).getD 0

/-- The call rests on the moment `last` at which it last loaded the tail across.  What it has
reserved is its share of what was claimable then, and what it is about to reserve is so if the head
has not moved since. -/
def Backed (shape : Shape) (last : Option RingState) (s : RingState) (c : Call) : Prop :=
  match c.phase with
  | .exchange claim => ∃ u, last = some u ∧
      claim.start.toNat ≤ (u.cursors c.side).head.toNat ∧
      (u.cursors c.side).head.toNat ≤ (s.cursors c.side).head.toNat ∧
      (claim.start.toNat = (u.cursors c.side).head.toNat →
        claim.len.toNat = c.behavior.share c.wanted.toNat (u.claimable shape c.side))
  | .copy _ _ | .publish _ | .moveTail _ | .done _ => ∃ u, last = some u ∧
      c.reserved = c.behavior.share c.wanted.toNat (u.claimable shape c.side)
  | _ => True

namespace Backed

variable {shape : Shape} {last : Option RingState} {s s' : RingState} {calls : List Call}
  {c c' : Call} {mode : SyncMode}

/-- Nothing is asked of a call that has not loaded yet, or is about to. -/
theorem of_before (h : c.phase = .loadHead ∨ c.isLoading = true) : c.Backed shape last s := by
  rcases h with hphase | hload
  · rw [Backed, hphase]
    trivial
  · obtain ⟨start, hphase⟩ := isLoading_iff.mp hload
    rw [Backed, hphase]
    trivial

theorem mono (h : c.Backed shape last s)
    (hhead : (s.cursors c.side).head.toNat ≤ (s'.cursors c.side).head.toNat) :
    c.Backed shape last s' := by
  unfold Backed at h ⊢
  split at h
  · obtain ⟨u, hlast, hstart, hle, hlen⟩ := h
    exact ⟨u, hlast, hstart, hle.trans hhead, hlen⟩
  · exact h
  · exact h
  · exact h
  · exact h
  · trivial

/-- What the call makes of a reading rests on the moment of the reading. -/
theorem decide (h : Consistent shape s calls) (hc : c ∈ calls) (haccess : c.access = .shared mode)
    (hbound : s.producer.head.toNat + shape.capacity < 2 ^ 64) {start : UInt64}
    (hphase : c.phase = .loadOpposing start) :
    ({ c with phase := c.decide shape start (s.cursors c.side.opposite).tail } : Call).Backed
      shape (some s) s := by
  have hstart := h.sound c hc
  simp only [Call.Sound, hphase] at hstart
  rcases decide_cases shape c start (s.cursors c.side.opposite).tail with
    heq | heq | ⟨claim, heq, rfl, hlen, -⟩
  · simp only [Backed, heq]
  · obtain ⟨hlimit, hnone⟩ := decide_eq_done haccess heq
    have hshare := toNat_take c.wanted c.behavior
      (available shape c.side start (s.cursors c.side.opposite).tail)
    rw [hnone, UInt64.toNat_zero] at hshare
    have hle := c.behavior.share_mono c.wanted.toNat
      (h.claimable_le_available hbound hstart hlimit)
    simp only [Backed, heq, reserved, claim?]
    exact ⟨s, rfl, (Nat.le_zero.mp (hshare ▸ hle)).symm⟩
  · simp only [Backed, heq]
    refine ⟨s, rfl, hstart, Nat.le_refl _, fun hhead => ?_⟩
    have htail := h.consumer_tail_le c.side
    have hle := h.head_le c.side
    rw [hlen, toNat_take, toNat_available (by omega) (by omega), h.claimable_eq, hhead]

/-- Progress other than a load keeps the call backed. -/
theorem progress (h : c.Backed shape last s) (hp : c.Progress shape s s' c')
    (hload : c.isLoading = false) : c'.Backed shape last s' := by
  cases hp with
  | loadHead => trivial
  | decide phase => simp only [isLoading, phase] at hload; cases hload
  | grant phase head =>
      simp only [Backed, phase] at h
      obtain ⟨u, hlast, hstart, hle, hlen⟩ := h
      rw [head] at hle
      exact ⟨u, hlast, hlen (by omega)⟩
  | retry => trivial
  | breakClaim => trivial
  | copyIn phase | copyOut phase | copied phase | seeTail phase =>
      simp only [Backed, phase, reserved, claim?] at h
      exact h
  | publish phase =>
      rcases phase with phase | phase
      · simp only [Backed, phase, reserved, claim?] at h
        exact h
      · simp only [Backed, phase, reserved, claim?] at h
        exact h
  | overrun | breakPublication => trivial
  | stay => exact h

/-- A step keeps the call backed, by this moment if it is a load. -/
theorem step (hcons : Consistent shape s calls) (hc : c ∈ calls) (hshared : c.access ≠ .owned)
    (hbound : s.producer.head.toNat + shape.capacity < 2 ^ 64) (h : c.Backed shape last s) :
    (c.step shape s).2.Backed shape (if c.isLoading then some s else last)
      (c.step shape s).1 := by
  split
  · rename_i hload
    obtain ⟨start, hphase⟩ := isLoading_iff.mp hload
    have hstep : c.step shape s =
        (s, { c with phase := c.decide shape start (s.cursors c.side.opposite).tail }) := by
      simp only [Call.step, hphase]
    rw [hstep]
    cases haccess : c.access with
    | shared mode => exact decide hcons hc haccess hbound hphase
    | owned => exact absurd haccess hshared
  · rename_i hload
    exact h.progress (progress_shared shape s hshared) (Bool.eq_false_of_not_eq_true hload)

end Backed

end Call

namespace System

variable {s : System} {m : Move}

theorem Orderly.bounds (h : s.Orderly)
    (hbound : s.claimed .producer + s.claimed .consumer < 2 ^ 64) :
    s.state.producer.head.toNat + s.shape.capacity < 2 ^ 64 := by
  have hproducer : s.claimed .producer = s.state.producer.head.toNat :=
    h.consistent.claimedOn_eq .producer
  have hconsumer : s.claimed .consumer = s.state.consumer.head.toNat :=
    h.consistent.claimedOn_eq .consumer
  have htail : s.state.consumer.tail.toNat ≤ s.state.consumer.head.toNat :=
    (h.consistent.tiled .consumer).tail_le_head
  have hhead : s.state.producer.head.toNat ≤ s.state.consumer.tail.toNat + s.shape.capacity :=
    h.consistent.head_le .producer
  have hcapacity := s.shape.capacity_le
  rw [maxCapacity] at hcapacity
  omega

/-- Heads only move forward. -/
theorem Orderly.head_le_act (h : s.Orderly) (h' : (s.act m).Orderly) (side : Side) :
    (s.state.cursors side).head.toNat ≤ ((s.act m).state.cursors side).head.toNat := by
  rw [← h.consistent.claimedOn_eq, ← h'.consistent.claimedOn_eq]
  exact claimed_act m s side

/-- A move keeps a numbered call backed. -/
theorem backed_act {shape : Shape} (hshape : s.shape = shape) (ho : s.Orderly)
    (ho' : (s.act m).Orderly) (hbound : s.state.producer.head.toNat + shape.capacity < 2 ^ 64)
    {i k : Nat} {last : Option RingState}
    (hbacked : ∀ c, s.call? i k = some c → c.Backed shape last s.state) {c : Call}
    (h : (s.act m).call? i k = some c) :
    c.Backed shape (if s.loads i k m then some s.state else last) (s.act m).state := by
  subst hshape
  have hhead := ho.head_le_act ho'
  exact numbered_act (fun _ _ _ => .of_before) (fun c hc => hc.mono (hhead c.side))
    (fun c hc => .step ho.consistent hc (ho.shared c hc) hbound) hbacked h

/-- Every call of a run rests on its last load. -/
theorem backed_run (shape : Shape) (callers : Nat) (schedule : List Move)
    (hshared : ∀ m ∈ schedule, m.IsShared)
    (hbound : ((create shape callers).run schedule).claimed .producer +
      ((create shape callers).run schedule).claimed .consumer < 2 ^ 64) {i k : Nat} {c : Call}
    (h : ((create shape callers).run schedule).call? i k = some c) :
    c.Backed shape (lastLoad? i k schedule (create shape callers))
      ((create shape callers).run schedule).state := by
  induction schedule using List.reverseRecOn generalizing c with
  | nil =>
      have hmem := mem_calls_of_call? h
      rw [run, List.foldl_nil, calls_create] at hmem
      cases hmem
  | append_singleton schedule m ih =>
      rw [run_concat] at h hbound ⊢
      have hproducer := claimed_act m ((create shape callers).run schedule) .producer
      have hconsumer := claimed_act m ((create shape callers).run schedule) .consumer
      have hbefore : ∀ m' ∈ schedule, m'.IsShared := fun m' hm' =>
        hshared m' (List.mem_append_left _ hm')
      have ho := (orderly_create shape callers).run hbefore (by omega)
      have hshape : ((create shape callers).run schedule).shape = shape := shape_run _ _
      have hbounds := ho.bounds (by omega)
      rw [hshape] at hbounds
      rw [lastLoad?_concat]
      exact backed_act hshape ho (ho.act (hshared m (by simp)) (by omega)) hbounds
        (fun c hc => ih hbefore (by omega) hc) h

/-- **No shortfall without a reason.**  Whenever a call has ended with fewer elements than it was
asked for, its side could not claim as many when the call last loaded the tail across: fewer than
it was asked for if it was to move all or none, and then it moved none, and else just those it
moved.  And no call that exchanges the head claims more than its side could claim at that
moment. -/
theorem shortfall_justified (shape : Shape) (callers : Nat) (schedule : List Move)
    (hshared : ∀ m ∈ schedule, m.IsShared)
    (hbound : ((create shape callers).run schedule).claimed .producer +
      ((create shape callers).run schedule).claimed .consumer < 2 ^ 64) :
    let s := (create shape callers).run schedule
    (∀ i k c, s.call? i k = some c → ∀ claim, c.phase = .done claim →
      c.moved < c.wanted.toNat →
        ∃ u, lastLoad? i k schedule (create shape callers) = some u ∧
          match c.behavior with
          | .exactly => c.moved = 0 ∧ u.claimable shape c.side < c.wanted.toNat
          | .atMost => u.claimable shape c.side = c.moved) ∧
    ∀ i k c, s.call? i k = some c → ∀ claim, c.phase = .exchange claim →
      (c.step shape s.state).2.phase = .copy claim 0 →
        claim.len.toNat ≤ s.state.claimable shape c.side := by
  intro s
  have ho : s.Orderly := (orderly_create shape callers).run hshared (by omega)
  have hshape : s.shape = shape := shape_run schedule _
  refine ⟨fun i k c hc claim hphase hshort => ?_, fun i k c hc claim hphase hcopy => ?_⟩
  · have hbacked := backed_run shape callers schedule hshared hbound hc
    simp only [Call.Backed, hphase] at hbacked
    obtain ⟨u, hlast, hshare⟩ := hbacked
    have hmoved : c.moved = c.reserved := by
      cases claim <;> simp only [Call.moved, Call.reserved, Call.claim?, hphase] <;> rfl
    refine ⟨u, hlast, ?_⟩
    rw [← hmoved] at hshare
    cases hbehavior : c.behavior with
    | exactly =>
        rw [hbehavior, Behavior.share] at hshare
        split at hshare
        · omega
        · exact ⟨hshare, by omega⟩
    | atMost =>
        rw [hbehavior, Behavior.share] at hshare
        simp only
        omega
  · have hmem := mem_calls_of_call? hc
    rw [← hshape] at hcopy ⊢
    exact ho.consistent.len_le_claimable hmem hphase
      (Call.head_eq_of_copy (ho.shared c hmem) hphase hcopy)

/-- A burst reads against a head that another producer has moved, loses its exchange and gets the
one slot left; a request for five of the four elements stored gets none. -/
def contended : List Move :=
  let put (behavior : Behavior) : Job :=
    .transfer .producer behavior (.shared .multi) 3 (Array.replicate 12 7)
  let get : Job := .transfer .consumer .exactly (.shared .single) 5 (Array.replicate 20 0)
  let steps (n caller : Nat) : List Move := List.replicate n (.step caller)
  [.start 0 (put .exactly), .start 1 (put .atMost), .step 1] ++ steps 3 0 ++ steps 5 1 ++
    steps 6 0 ++ steps 4 1 ++ Move.start 2 get :: steps 2 2

theorem shortfall_justified_contended :
    (∃ u, lastLoad? 1 0 contended (create fourSlots 3) = some u ∧
      u.claimable fourSlots .producer = 1) ∧
    ∃ u, lastLoad? 2 0 contended (create fourSlots 3) = some u ∧
      u.claimable fourSlots .consumer < 5 := by
  obtain ⟨hshort, -⟩ := shortfall_justified fourSlots 3 contended (by decide) (by decide +kernel)
  constructor
  · obtain ⟨c, hc, heq⟩ := Option.map_eq_some_iff.mp (by decide +kernel :
      (call? (run contended (create fourSlots 3)) 1 0).map
        (fun c => (c.side, c.behavior, c.wanted, c.phase)) =
      some (.producer, .atMost, 3, .done (some ⟨3, 4⟩)))
    obtain ⟨hside, hbehavior, hwanted, hphase⟩ : c.side = .producer ∧ c.behavior = .atMost ∧
      c.wanted = 3 ∧ c.phase = .done (some ⟨3, 4⟩) := by simpa using heq
    have hmoved : c.moved = 1 := by rw [Call.moved, hphase]; rfl
    obtain ⟨u, hlast, hu⟩ := hshort 1 0 c hc _ hphase (by rw [hmoved, hwanted]; decide)
    rw [hbehavior, hside, hmoved] at hu
    exact ⟨u, hlast, hu⟩
  · obtain ⟨c, hc, heq⟩ := Option.map_eq_some_iff.mp (by decide +kernel :
      (call? (run contended (create fourSlots 3)) 2 0).map
        (fun c => (c.side, c.behavior, c.wanted, c.phase)) =
      some (.consumer, .exactly, 5, .done none))
    obtain ⟨hside, hbehavior, hwanted, hphase⟩ : c.side = .consumer ∧ c.behavior = .exactly ∧
      c.wanted = 5 ∧ c.phase = .done none := by simpa using heq
    have hmoved : c.moved = 0 := by rw [Call.moved, hphase]
    obtain ⟨u, hlast, hu⟩ := hshort 2 0 c hc _ hphase (by rw [hmoved, hwanted]; decide)
    rw [hbehavior, hside, hwanted] at hu
    exact ⟨u, hlast, hu.2⟩

end System

end BurstRing
