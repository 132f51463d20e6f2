import BurstRing.Ring.System
import BurstRing.Proofs.Ring.Slot
import BurstRing.Proofs.Ring.Tile

/-!
# What a step can do

`Call.Progress` lists what one atomic step of a call does to the ring and to the call, with the
conditions under which it does it, and `Call.progress_step` says that a step does nothing else.
`System.Change` does the same for the moves of a system: a move leaves the calls alone, adds one
that has not begun, or lets one of them make a step or lose its exchange (`System.change_act`).

The calls of a system are looked at as a list in which their order does not matter, because every
property here is one of all calls or of all pairs of calls.
-/

namespace BurstRing

/-! ### Lengths -/

/-- The claim runs over `2 ^ 64` in a build that checks for that. -/
def Claim.Overruns (overflow : Overflow) (c : Claim) : Prop :=
  overflow = .checked ∧ c.stop < c.start

namespace Claim

variable {overflow : Overflow} {c : Claim}

theorem length_of_overruns (h : c.Overruns overflow) : c.length overflow = .error .subtraction := by
  obtain ⟨rfl, hlt⟩ := h
  exact if_pos hlt

/-- Any other claim has as many positions as every build says. -/
theorem length_of_not_overruns (h : ¬ c.Overruns overflow) : c.length overflow = .ok c.len := by
  cases overflow with
  | wrapping => rfl
  | checked => exact if_neg fun hlt => h ⟨rfl, hlt⟩

/-- The claims that have no length in a build that checks are those that get to `2 ^ 64`. -/
theorem overruns_iff :
    c.Overruns overflow ↔ overflow = .checked ∧ 2 ^ 64 ≤ c.start.toNat + c.len.toNat := by
  have hstart := c.start.toNat_lt
  have hstop := c.stop.toNat_lt
  refine and_congr_right fun _ => ?_
  rw [UInt64.lt_iff_toNat_lt, len, UInt64.toNat_sub]
  omega

theorem not_overruns_of_le (h : c.start.toNat ≤ c.stop.toNat) : ¬ c.Overruns overflow :=
  fun hover => Nat.not_lt.mpr h (UInt64.lt_iff_toNat_lt.mp hover.2)

theorem not_overruns_of_wrapping (c : Claim) (h : overflow = .wrapping) : ¬ c.Overruns overflow := by
  rintro ⟨rfl, -⟩
  cases h

end Claim

/-! ### Positions open to a side -/

namespace RingState

/-- The position up to which a side may claim. -/
def horizon (shape : Shape) (s : RingState) : Side → Nat
  | .producer => s.consumer.tail.toNat + shape.capacity
  | .consumer => s.producer.tail.toNat

/-- Positions that a side could claim at this moment. -/
def claimable (shape : Shape) (s : RingState) : Side → Nat
  | .producer => shape.capacity - (s.producer.head - s.consumer.tail).toNat
  | .consumer => (s.producer.tail - s.consumer.head).toNat

@[simp] theorem cursors_setCursors (s : RingState) (side : Side) (k : Cursors) :
    (s.setCursors side k).cursors side = k := by
  cases side <;> rfl

theorem cursors_setCursors_of_ne (s : RingState) {side other : Side} (k : Cursors)
    (h : other ≠ side) : (s.setCursors side k).cursors other = s.cursors other := by
  cases side <;> cases other <;> first | rfl | exact absurd rfl h

@[simp] theorem storage_setCursors (s : RingState) (side : Side) (k : Cursors) :
    (s.setCursors side k).storage = s.storage := by
  cases side <;> rfl

@[simp] theorem setCursors_cursors (s : RingState) (side : Side) :
    s.setCursors side (s.cursors side) = s := by
  cases side <;> rfl

end RingState

/-- How many of `wanted` elements a transfer moves when there is room for `room`. -/
def Behavior.share (behavior : Behavior) (wanted room : Nat) : Nat :=
  match behavior with
  | .exactly => if wanted ≤ room then wanted else 0
  | .atMost => min wanted room

theorem Behavior.share_le_wanted (behavior : Behavior) (wanted room : Nat) :
    behavior.share wanted room ≤ wanted := by
  cases behavior with
  | exactly => rw [share]; split <;> omega
  | atMost => exact Nat.min_le_left _ _

theorem Behavior.share_le_room (behavior : Behavior) (wanted room : Nat) :
    behavior.share wanted room ≤ room := by
  cases behavior with
  | exactly => rw [share]; split <;> omega
  | atMost => exact Nat.min_le_right _ _

theorem Behavior.share_eq_wanted (behavior : Behavior) {wanted room : Nat} (h : wanted ≤ room) :
    behavior.share wanted room = wanted := by
  cases behavior with
  | exactly => exact if_pos h
  | atMost => exact Nat.min_eq_left h

theorem toNat_take (wanted : UInt64) (behavior : Behavior) (available : UInt64) :
    (take wanted behavior available).toNat = behavior.share wanted.toNat available.toNat := by
  cases behavior with
  | exactly =>
      rw [take, Behavior.share]
      by_cases h : available < wanted
      · rw [if_pos h, if_neg (Nat.not_le.mpr (UInt64.lt_iff_toNat_lt.mp h)), UInt64.toNat_zero]
      · rw [if_neg h, if_pos (Nat.not_lt.mp (mt UInt64.lt_iff_toNat_lt.mpr h))]
  | atMost => exact UInt64.toNat_min _ _

theorem take_le_available (wanted : UInt64) (behavior : Behavior) (available : UInt64) :
    (take wanted behavior available).toNat ≤ available.toNat := by
  rw [toNat_take]
  exact behavior.share_le_room _ _

theorem take_le_wanted (wanted : UInt64) (behavior : Behavior) (available : UInt64) :
    (take wanted behavior available).toNat ≤ wanted.toNat := by
  rw [toNat_take]
  exact behavior.share_le_wanted _ _

namespace Call

/-- Against a head between the consumer's tail and the horizon, the reading is what lies between
the head and the horizon. -/
theorem toNat_available {shape : Shape} {s : RingState} {side : Side} {start : UInt64}
    (htail : s.consumer.tail.toNat ≤ start.toNat) (hhead : start.toNat ≤ s.horizon shape side) :
    (available shape side start (s.cursors side.opposite).tail).toNat =
      s.horizon shape side - start.toNat := by
  cases side with
  | producer =>
      have hsub : (start - s.consumer.tail).toNat = start.toNat - s.consumer.tail.toNat :=
        UInt64.toNat_sub_of_le _ _ (UInt64.le_iff_toNat_le.mpr htail)
      simp only [RingState.horizon] at hhead ⊢
      rw [available, Side.opposite, RingState.cursors, UInt64.toNat_sub_of_le, hsub,
        Shape.toNat_capacity]
      · omega
      · rw [UInt64.le_iff_toNat_le, hsub, Shape.toNat_capacity]
        omega
  | consumer => exact UInt64.toNat_sub_of_le _ _ (UInt64.le_iff_toNat_le.mpr hhead)

/-- A reading sends the call back, ends it with nothing, or leads to an exchange of as many
positions as the request takes of the reading. -/
theorem decide_cases (shape : Shape) (c : Call) (start tail : UInt64) :
    c.decide shape start tail = .loadHead ∨ c.decide shape start tail = .done none ∨
      ∃ claim, c.decide shape start tail = .exchange claim ∧ claim.start = start ∧
        claim.len = take c.wanted c.behavior (available shape c.side start tail) ∧
        0 < claim.len.toNat := by
  unfold Call.decide judge
  split <;> rename_i h
  · exact .inl rfl
  · exact .inr (.inl rfl)
  · refine .inr (.inr ⟨_, rfl, ?_⟩)
    split at h
    · cases h
    · dsimp only at h
      split at h
      · cases h
      · rename_i hne
        cases h
        have hlen : ∀ n : UInt64, (⟨start, start + n⟩ : Claim).len = n := fun n => by
          rw [Claim.len, UInt64.add_comm, UInt64.add_sub_cancel]
        refine ⟨rfl, hlen _, ?_⟩
        rw [hlen, ← UInt64.toNat_zero, ← UInt64.lt_iff_toNat_lt]
        exact UInt64.pos_iff_ne_zero.mpr hne

/-- What a step of call `c` on the ring `s` makes of both. -/
inductive Progress (shape : Shape) (s : RingState) (c : Call) : RingState → Call → Prop where
  | loadHead (phase : c.phase = .loadHead) :
      Progress shape s c s { c with phase := .loadOpposing (s.cursors c.side).head }
  | decide {start : UInt64} (phase : c.phase = .loadOpposing start) :
      Progress shape s c s
        { c with phase := c.decide shape start (s.cursors c.side.opposite).tail }
  | grant {claim : Claim} (phase : c.phase = .exchange claim)
      (head : (s.cursors c.side).head = claim.start) :
      Progress shape s c (s.setCursors c.side ((s.cursors c.side).reserve claim))
        { c with phase := .copy claim 0 }
  | retry {claim : Claim} (phase : c.phase = .exchange claim) :
      Progress shape s c s { c with phase := .loadHead }
  | breakClaim {claim : Claim} (phase : c.phase = .exchange claim) :
      Progress shape s c s { c with phase := .broken .concurrentClaim none }
  | copyIn {claim : Claim} {copied : Nat} (phase : c.phase = .copy claim copied)
      (more : copied < claim.len.toNat) (side : c.side = .producer) :
      Progress shape s c { s with storage := s.storage.putElement shape claim c.buffer copied }
        { c with phase := .copy claim (copied + 1) }
  | copyOut {claim : Claim} {copied : Nat} (phase : c.phase = .copy claim copied)
      (more : copied < claim.len.toNat) (side : c.side = .consumer) :
      Progress shape s c s
        { c with buffer := s.storage.getElement shape claim c.buffer copied,
                 phase := .copy claim (copied + 1) }
  | copied {claim : Claim} {copied : Nat} (phase : c.phase = .copy claim copied)
      (all : claim.len.toNat ≤ copied) :
      Progress shape s c s { c with phase := .publish claim }
  | overrun {claim : Claim} {copied : Nat} (phase : c.phase = .copy claim copied)
      (tooLong : claim.Overruns shape.overflow) :
      Progress shape s c s { c with phase := .broken .subtraction (some claim) }
  | publish {claim : Claim} (phase : c.phase = .publish claim ∨ c.phase = .moveTail claim)
      (tail : c.phase = .publish claim → (s.cursors c.side).tail = claim.start) :
      Progress shape s c (s.setCursors c.side ((s.cursors c.side).release claim))
        { c with phase := .done (some claim) }
  | seeTail {claim : Claim} (phase : c.phase = .publish claim)
      (tail : (s.cursors c.side).tail = claim.start) :
      Progress shape s c s { c with phase := .moveTail claim }
  | breakPublication {claim : Claim} (phase : c.phase = .publish claim) :
      Progress shape s c s { c with phase := .broken .concurrentPublication (some claim) }
  | stay : Progress shape s c s c

/-- A step makes progress of one of these kinds.  The only caller of a side moves its cursors
without a test, so what the test would find is asked of it beforehand. -/
theorem progress_step (shape : Shape) (s : RingState) (c : Call)
    (hhead : ∀ claim, c.phase = .exchange claim → c.access = .owned →
      (s.cursors c.side).head = claim.start)
    (htail : ∀ claim, c.phase = .publish claim → c.access = .owned →
      (s.cursors c.side).tail = claim.start) :
    c.Progress shape s (c.step shape s).1 (c.step shape s).2 := by
  obtain ⟨side, behavior, access, wanted, buffer, phase⟩ := c
  cases phase with
  | loadHead => exact .loadHead rfl
  | loadOpposing start => exact .decide rfl
  | exchange claim =>
      cases access with
      | owned => exact .grant rfl (hhead claim rfl rfl)
      | shared mode =>
          by_cases h : (s.cursors side).head = claim.start
          · simp only [step, Call.reserve, Cursors.exchange, if_pos h]
            exact .grant rfl h
          · cases mode with
            | single =>
                simp only [step, Call.reserve, Cursors.exchange, if_neg h,
                  RingState.setCursors_cursors]
                exact .breakClaim rfl
            | multi =>
                simp only [step, Call.reserve, Cursors.exchange, if_neg h,
                  RingState.setCursors_cursors]
                exact .retry rfl
  | copy claim copied =>
      by_cases hover : claim.Overruns shape.overflow
      · simp only [step, Claim.length_of_overruns hover]
        exact .overrun rfl hover
      · by_cases h : copied < claim.len.toNat
        · cases side with
          | producer =>
              simp only [step, Claim.length_of_not_overruns hover, if_pos h]
              exact .copyIn rfl h rfl
          | consumer =>
              simp only [step, Claim.length_of_not_overruns hover, if_pos h]
              exact .copyOut rfl h rfl
        · simp only [step, Claim.length_of_not_overruns hover, if_neg h]
          exact .copied rfl (Nat.le_of_not_lt h)
  | publish claim =>
      cases access with
      | owned => exact .publish (.inl rfl) fun _ => htail claim rfl rfl
      | shared mode =>
          by_cases h : (s.cursors side).tail = claim.start
          · cases mode with
            | single =>
                simp only [step, settle, Cursors.publish, if_pos h]
                exact .publish (.inl rfl) fun _ => h
            | multi =>
                simp only [step, settle, if_pos h, RingState.setCursors_cursors]
                exact .seeTail rfl h
          · cases mode with
            | single =>
                simp only [step, settle, Cursors.publish, if_neg h,
                  RingState.setCursors_cursors]
                exact .breakPublication rfl
            | multi =>
                simp only [step, settle, if_neg h, RingState.setCursors_cursors]
                exact .stay
  | moveTail claim => exact .publish (.inr rfl) nofun
  | done claim => exact .stay
  | broken panic claim => exact .stay

/-- Calls beside each other make progress of the kinds listed. -/
theorem progress_shared (shape : Shape) (s : RingState) {c : Call}
    (h : c.access ≠ .owned) : c.Progress shape s (c.step shape s).1 (c.step shape s).2 :=
  c.progress_step shape s (fun _ _ ho => absurd ho h) fun _ _ ho => absurd ho h

/-- A call that is over takes no more steps. -/
theorem step_of_isOver (shape : Shape) (s : RingState) {c : Call} (h : c.isOver = true) :
    c.step shape s = (s, c) := by
  unfold isOver at h
  split at h
  · rename_i hphase
    simp only [step, hphase]
  · rename_i hphase
    simp only [step, hphase]
  · cases h

/-- A lost exchange sends the call back, and else nothing is lost. -/
theorem progress_spoil (shape : Shape) (s : RingState) (c : Call) :
    c.Progress shape s s c.spoil := by
  unfold spoil
  split
  · rename_i claim h _
    exact .retry h
  · exact .stay

end Call

end BurstRing
