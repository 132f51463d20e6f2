import BurstRing.Proofs.Ring.Split

/-!
# A ring in another build

Builds of the program differ in one thing that a ring does: a claim that gets to `2 ^ 64` has a
length in some and none in others.  So a call that is alone takes the same steps in all builds as
long as its claim has a length (`Call.runAlone_inBuild`), and which claim that is does not depend on
the build: it is the share of the room that the call finds (`Call.claim?_runAlone_steps`).  Where the
claim gets to `2 ^ 64`, a build that checks breaks the call off between its exchange and its first
copy (`Call.runAlone_overrun`).

For a ring this says that a transfer is the same in every build (`Ring.perform_inBuild`), or that it
panics with its head moved and nothing else changed (`Ring.perform_overrun`).  Both say nothing of
the access, so what holds of every access where lengths do not matter holds of every access where
they do (`Ring.Holds.anyAccess_inBuild`).
-/

namespace BurstRing

/-! ### Sides that are held -/

/-- A call that is alone reads right what it could claim, be there claims on its side or not. -/
structure RingState.Legible (shape : Shape) (s : RingState) (side : Side) : Prop where
  room_eq : (Call.available shape side (s.cursors side).head
    (s.cursors side.opposite).tail).toNat = s.claimable shape side
  claimable_le : s.claimable shape side ≤ shape.capacity
  used_le : s.used ≤ shape.capacity

theorem RingState.Ready.legible {shape : Shape} {s : RingState} {side : Side}
    (h : s.Ready shape side) : s.Legible shape side where
  room_eq := RingState.Ready.toNat_room (c := .begin side .exactly .owned 0 #[]) h
  claimable_le := h.claimable_le
  used_le := h.used_le

theorem RingState.Legible.inBuild {shape : Shape} {s : RingState} {side : Side}
    (overflow : Overflow) (h : s.Legible shape side) : s.Legible (shape.inBuild overflow) side where
  room_eq := h.room_eq
  claimable_le := h.claimable_le
  used_le := h.used_le

namespace Call

variable {shape : Shape} {s : RingState} {c : Call} {claim : Claim}

/-! ### Steps in another build -/

/-- Only a copy looks at the build, and not if the claim is one that has a length everywhere. -/
theorem step_inBuild (overflow : Overflow)
    (hfits : ∀ claim, c.claim? = some claim → claim.start.toNat ≤ claim.stop.toNat) :
    c.step (shape.inBuild overflow) s = c.step shape s := by
  obtain ⟨side, behavior, access, wanted, buffer, phase⟩ := c
  cases phase with
  | copy claim copied =>
      have hle : claim.start.toNat ≤ claim.stop.toNat := hfits claim rfl
      simp only [step, Claim.length_of_not_overruns (Claim.not_overruns_of_le hle)]
      rfl
  | _ => rfl

theorem claim?_runAlone (fuel : Nat) : ∀ {s : RingState} {c : Call}, c.claim? = some claim →
    (c.runAlone shape fuel s).2.claim? = some claim := by
  induction fuel with
  | zero => exact fun h => h
  | succ fuel ih =>
      intro s c h
      rw [runAlone]
      split
      · exact h
      · exact ih (claim?_step shape s h)

/-- A call takes the same steps in every build, if the claim that it comes to hold has a length
everywhere. -/
theorem runAlone_inBuild (overflow : Overflow) (fuel : Nat) : ∀ {s : RingState} {c : Call},
    (∀ claim, (c.runAlone shape fuel s).2.claim? = some claim →
      claim.start.toNat ≤ claim.stop.toNat) →
    c.runAlone (shape.inBuild overflow) fuel s = c.runAlone shape fuel s := by
  induction fuel with
  | zero => exact fun _ => rfl
  | succ fuel ih =>
      intro s c hfits
      by_cases hover : c.isOver = true
      · rw [runAlone, runAlone, if_pos hover, if_pos hover]
      rw [runAlone, if_neg hover] at hfits
      -- A claim that the call holds by now is the one that it comes to hold.
      have hnow : ∀ claim, c.claim? = some claim → claim.start.toNat ≤ claim.stop.toNat :=
        fun claim h => hfits claim (claim?_runAlone fuel (claim?_step shape s h))
      rw [runAlone, runAlone, if_neg hover, if_neg hover, step_inBuild overflow hnow]
      exact ih hfits

/-! ### The claim of a call that is alone -/

theorem claim?_runAlone_steps (hphase : c.phase = .loadHead)
    (hroom : (c.room shape s).toNat ≤ shape.capacity) :
    (c.runAlone shape c.steps s).2.claim? =
      Claim.granted? (s.cursors c.side).head (c.taken shape s) := by
  by_cases hn : c.taken shape s = 0
  · have hend : c.runAlone shape c.steps s = (s, { c with phase := .done none }) :=
      (reaches_nothing hphase hroom hn).runAlone_eq rfl (Nat.le_add_left 2 _)
    rw [hend, Claim.granted?, if_pos hn]
    rfl
  · rw [Claim.granted?, if_neg hn]
    have hsteps : c.steps = c.wanted.toNat + 3 + 3 := rfl
    rw [hsteps, reaches_copy hphase hroom hn]
    exact claim?_runAlone _ rfl

/-- A claim that ends below `2 ^ 64` is the same to all builds. -/
theorem runAlone_inBuild_of_lt (overflow : Overflow) (hphase : c.phase = .loadHead)
    (hroom : (c.room shape s).toNat ≤ shape.capacity)
    (hlt : (s.cursors c.side).head.toNat + (c.taken shape s).toNat < 2 ^ 64) :
    c.runAlone (shape.inBuild overflow) c.steps s = c.runAlone shape c.steps s := by
  refine runAlone_inBuild overflow _ fun claim hclaim => ?_
  rw [claim?_runAlone_steps hphase hroom, Claim.granted?] at hclaim
  split at hclaim
  · cases hclaim
  · cases hclaim
    dsimp only
    rw [UInt64.toNat_add, Nat.mod_eq_of_lt hlt]
    exact Nat.le_add_right _ _

/-- Any other claim breaks the call off in a build that checks: the head has moved, and nothing has
been copied. -/
theorem runAlone_overrun (hbuild : shape.overflow = .checked) (hphase : c.phase = .loadHead)
    (hroom : (c.room shape s).toNat ≤ shape.capacity)
    (hover : 2 ^ 64 ≤ (s.cursors c.side).head.toNat + (c.taken shape s).toNat) :
    let claim : Claim := ⟨(s.cursors c.side).head, (s.cursors c.side).head + c.taken shape s⟩
    c.runAlone shape c.steps s = (s.setCursors c.side ((s.cursors c.side).reserve claim),
      { c with phase := .broken .subtraction (some claim) }) := by
  intro claim
  have hn : c.taken shape s ≠ 0 := by
    intro hzero
    rw [hzero] at hover
    exact absurd hover (Nat.not_le.mpr (UInt64.toNat_lt _))
  have hoverruns : claim.Overruns shape.overflow := by
    rw [Claim.overruns_iff, Claim.len_mk]
    exact ⟨hbuild, hover⟩
  refine ((reaches_copy hphase hroom hn).trans (.one rfl ?_)).runAlone_eq rfl
    (show 4 ≤ c.wanted.toNat + 6 by omega)
  simp only [step]
  rw [Claim.length_of_overruns hoverruns]

end Call

/-! ### Transfers in another build -/

/-- The same ring in such a build. -/
def Ring.inBuild (overflow : Overflow) (r : Ring) : Ring :=
  { r with shape := r.shape.inBuild overflow }

namespace Ring

variable {r : Ring} {q : List (List UInt8)} {side : Side} {behavior : Behavior} {wanted : Nat}

theorem inBuild_of_eq {overflow : Overflow} (h : r.shape.overflow = overflow) :
    r.inBuild overflow = r := by
  subst h
  rfl

theorem inBuild_inBuild (overflow overflow' : Overflow) (r : Ring) :
    (r.inBuild overflow').inBuild overflow = r.inBuild overflow := rfl

/-- Where a transfer that gets its share ends, counted on from its head. -/
def reach (r : Ring) (side : Side) (behavior : Behavior) (wanted : Nat) : Nat :=
  (r.state.cursors side).head.toNat +
    behavior.share wanted.toUInt64.toNat (r.state.claimable r.shape side)

/-- A transfer that ends below `2 ^ 64` is the same in all builds. -/
theorem perform_inBuild (overflow : Overflow) (h : r.state.Legible r.shape side)
    (hlt : r.reach side behavior wanted < 2 ^ 64) (access : Access) (buffer : Array UInt8) :
    (r.inBuild overflow).perform side behavior access wanted buffer =
      let done := r.perform side behavior access wanted buffer
      (done.1, done.2.1, done.2.2.inBuild overflow) := by
  obtain ⟨name, shape, producer, consumer, state⟩ := r
  set c := Call.begin side behavior access wanted.toUInt64 buffer with hc
  have hroom : (c.room shape state).toNat = state.claimable shape side := h.room_eq
  have htaken : (c.taken shape state).toNat =
      behavior.share wanted.toUInt64.toNat (state.claimable shape side) := by
    rw [Call.taken, toNat_take, hroom]
    rfl
  have hrun := Call.runAlone_inBuild_of_lt (c := c) overflow rfl (hroom.trans_le h.claimable_le)
    (htaken ▸ hlt)
  simp only [inBuild, perform, ← hc, hrun]
  obtain ⟨s', ⟨_, _, _, _, buffer', phase⟩⟩ := c.runAlone shape c.steps state
  cases phase <;> rfl

/-- Any other transfer panics in a build that checks, with its head moved. -/
theorem perform_overrun (hbuild : r.shape.overflow = .checked) (h : r.state.Legible r.shape side)
    (hover : 2 ^ 64 ≤ r.reach side behavior wanted) :
    ∃ claim : Claim, ∀ (access : Access) (buffer : Array UInt8),
      r.perform side behavior access wanted buffer = (.error (.panicked .subtraction), buffer,
        { r with state := r.state.setCursors side ((r.state.cursors side).reserve claim) }) := by
  obtain ⟨name, shape, producer, consumer, state⟩ := r
  refine ⟨⟨(state.cursors side).head, (state.cursors side).head +
    take wanted.toUInt64 behavior (Call.available shape side (state.cursors side).head
      (state.cursors side.opposite).tail)⟩, fun access buffer => ?_⟩
  set c := Call.begin side behavior access wanted.toUInt64 buffer with hc
  have hroom : (c.room shape state).toNat = state.claimable shape side := h.room_eq
  have htaken : (c.taken shape state).toNat =
      behavior.share wanted.toUInt64.toNat (state.claimable shape side) := by
    rw [Call.taken, toNat_take, hroom]
    rfl
  have hrun := Call.runAlone_overrun (c := c) hbuild rfl (hroom.trans_le h.claimable_le)
    (htaken ▸ hover)
  rw [perform]
  dsimp only
  rw [← hc, hrun]
  rfl

/-! ### Any access, in any build -/

theorem Holds.anyAccess_inBuild (h : r.Holds q) (overflow : Overflow) :
    (r.inBuild overflow).AnyAccess := by
  intro a b side behavior wanted buffer
  have hlegible := (h.ready side).legible
  rcases Nat.lt_or_ge (r.reach side behavior wanted) (2 ^ 64) with hlt | hover
  · rw [perform_inBuild overflow hlegible hlt, perform_inBuild overflow hlegible hlt,
      h.anyAccess a b]
  · cases overflow with
    | wrapping =>
        rw [inBuild_of_eq h.unchecked]
        exact h.anyAccess a b side behavior wanted buffer
    | checked =>
        obtain ⟨claim, hpanics⟩ :=
          perform_overrun (r := r.inBuild .checked) rfl (hlegible.inBuild .checked) hover
        rw [hpanics a, hpanics b]

end Ring

end BurstRing
