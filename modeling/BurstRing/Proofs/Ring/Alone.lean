import BurstRing.Ring.Basic
import BurstRing.Proofs.Ring.Change

/-!
# A transfer that nobody interferes with

A side is ready where nobody holds a claim on it, so that its tail stands at its head, and the ring
holds no more than it can and is of a build that does not check for overflow (`RingState.Ready`).
On a side that is ready a call that is alone comes to its end within `Call.steps`, whatever its
access is and whatever goes on on the other side: it moves its share of what the side could claim,
and nothing else changes (`Ring.perform_store`, `Ring.perform_fetch`).

`RingState.Holds` says that both sides are ready and which records the ring holds, oldest first: the
heads are as far apart as there are records, and record `i` lies in the slot of the position `i`
after the consumer's head.  A transfer leaves such a ring (`Ring.perform_producer`,
`Ring.perform_consumer`).  Only differences of positions count, so nothing changes when they wrap.

Of a ring in any other state only this much is said, that a call beside others moves no more than
was asked for (`Ring.perform_le`).
-/

namespace BurstRing

theorem Claim.len_mk (start n : UInt64) : (⟨start, start + n⟩ : Claim).len = n := by
  rw [Claim.len, UInt64.add_comm, UInt64.add_sub_cancel]

/-- What a call is granted that takes `n` positions from `start` on. -/
def Claim.granted? (start n : UInt64) : Option Claim :=
  if n = 0 then none else some ⟨start, start + n⟩

theorem Claim.len_granted? (start n : UInt64) :
    ((granted? start n).map fun a => a.len.toNat).getD 0 = n.toNat := by
  rw [granted?]
  split
  · rename_i hn
    rw [hn]
    rfl
  · exact congrArg UInt64.toNat (len_mk start n)

theorem Claim.granted?_of_pos {n : UInt64} (h : 0 < n.toNat) (start : UInt64) :
    granted? start n = some ⟨start, start + n⟩ := by
  refine if_neg ?_
  rintro rfl
  exact absurd h (by decide)

/-! ### Steps of a call that is alone -/

namespace Call

variable {shape : Shape} {s s' s'' : RingState} {c c' c'' : Call} {m n : Nat}

/-- In `n` steps a call that is alone gets from `s` and `c` to `s'` and `c'`. -/
def Reaches (shape : Shape) (n : Nat) (s : RingState) (c : Call) (s' : RingState) (c' : Call) :
    Prop :=
  ∀ fuel, runAlone shape (fuel + n) s c = runAlone shape fuel s' c'

theorem Reaches.refl (s : RingState) (c : Call) : Reaches shape 0 s c s c := fun _ => rfl

theorem Reaches.trans (h : Reaches shape m s c s' c') (h' : Reaches shape n s' c' s'' c'') :
    Reaches shape (m + n) s c s'' c'' := by
  intro fuel
  rw [← h' fuel, ← h (fuel + n), Nat.add_assoc, Nat.add_comm n m]

theorem Reaches.one (hover : c.isOver = false) (hstep : c.step shape s = (s', c')) :
    Reaches shape 1 s c s' c' := by
  intro fuel
  rw [runAlone, hover, hstep]
  rfl

/-- A call that gets to its end stays there. -/
theorem Reaches.runAlone_eq {fuel : Nat} (h : Reaches shape n s c s' c')
    (hover : c'.isOver = true) (hle : n ≤ fuel) : runAlone shape fuel s c = (s', c') := by
  obtain ⟨rest, rfl⟩ := Nat.exists_eq_add_of_le' hle
  rw [h rest]
  cases rest with
  | zero => rfl
  | succ rest => rw [runAlone, if_pos hover]

/-- So many steps of a call that is alone end in one way only. -/
theorem Reaches.unique (h : Reaches shape n s c s' c') (h' : Reaches shape n s c s'' c'') :
    (s', c') = (s'', c'') :=
  (h 0).symm.trans (h' 0)

/-- Positions that `c` can claim, as it finds them when it is alone. -/
def room (shape : Shape) (s : RingState) (c : Call) : UInt64 :=
  available shape c.side (s.cursors c.side).head (s.cursors c.side.opposite).tail

/-- Positions that `c` takes when it is alone. -/
def taken (shape : Shape) (s : RingState) (c : Call) : UInt64 :=
  take c.wanted c.behavior (c.room shape s)

/-- A reading within the capacity decides at once. -/
theorem decide_eq (h : (c.room shape s).toNat ≤ shape.capacity) :
    c.decide shape (s.cursors c.side).head (s.cursors c.side.opposite).tail =
      if c.taken shape s = 0 then .done none
      else .exchange ⟨(s.cursors c.side).head, (s.cursors c.side).head + c.taken shape s⟩ := by
  have hlimit : (limit shape c.access).any (· < c.room shape s) = false := by
    cases c.access with
    | owned => rfl
    | shared mode =>
        rw [limit, Option.any_some, decide_eq_false_iff_not, UInt64.lt_iff_toNat_lt,
          Shape.toNat_capacity]
        exact Nat.not_lt.mpr h
  rw [room] at hlimit
  rw [Call.decide, judge, hlimit, taken, room, if_neg Bool.false_ne_true]
  dsimp only
  split <;> rename_i hverdict <;> split at hverdict <;> cases hverdict
  · rename_i hn
    rw [if_pos hn]
  · rename_i hn
    rw [if_neg hn]

/-- A call begins with its two loads. -/
theorem reaches_decide (hphase : c.phase = .loadHead) :
    Reaches shape 2 s c s { c with
      phase := c.decide shape (s.cursors c.side).head (s.cursors c.side.opposite).tail } := by
  have hload : Reaches shape 1 s c s
      { c with phase := .loadOpposing (s.cursors c.side).head } := by
    refine .one ?_ ?_
    · rw [isOver, hphase]
    · rw [step, hphase]
  exact hload.trans (.one rfl rfl)

/-- A call that can take nothing ends there. -/
theorem reaches_nothing (hphase : c.phase = .loadHead)
    (hroom : (c.room shape s).toNat ≤ shape.capacity) (hn : c.taken shape s = 0) :
    Reaches shape 2 s c s { c with phase := .done none } := by
  have h : Reaches shape 2 s c s _ := reaches_decide hphase
  rwa [decide_eq hroom, if_pos hn] at h

/-- Any other call moves the head of its side over what it takes. -/
theorem reaches_copy (hphase : c.phase = .loadHead)
    (hroom : (c.room shape s).toNat ≤ shape.capacity) (hn : c.taken shape s ≠ 0) :
    let claim : Claim := ⟨(s.cursors c.side).head, (s.cursors c.side).head + c.taken shape s⟩
    Reaches shape 3 s c (s.setCursors c.side ((s.cursors c.side).reserve claim))
      { c with phase := .copy claim 0 } := by
  intro claim
  have h : Reaches shape 2 s c s _ := reaches_decide hphase
  rw [decide_eq hroom, if_neg hn] at h
  refine h.trans (.one rfl ?_)
  obtain ⟨side, behavior, access, wanted, buffer, phase⟩ := c
  cases access with
  | owned => rfl
  | shared mode =>
      simp only [step, Call.reserve, Cursors.exchange, claim, if_true]
      rfl

/-- A call that has copied all its elements publishes them, in two steps if it tests the tail
before it moves it. -/
theorem reaches_done (s : RingState) (c : Call) {claim : Claim} {copied : Nat}
    (hfits : ¬ claim.Overruns shape.overflow) (hphase : c.phase = .copy claim copied)
    (hcopied : claim.len.toNat ≤ copied) (htail : (s.cursors c.side).tail = claim.start) :
    ∃ n ≤ 3, Reaches shape n s c (s.setCursors c.side ((s.cursors c.side).release claim))
      { c with phase := .done (some claim) } := by
  obtain ⟨side, behavior, access, wanted, buffer, phase⟩ := c
  dsimp only at hphase htail
  subst hphase
  have hpublish : Reaches shape 1 s ⟨side, behavior, access, wanted, buffer, .copy claim copied⟩ s
      ⟨side, behavior, access, wanted, buffer, .publish claim⟩ := by
    refine .one rfl ?_
    simp only [step, Claim.length_of_not_overruns hfits, if_neg (Nat.not_lt.mpr hcopied)]
  cases access with
  | owned => exact ⟨2, by decide, hpublish.trans (.one rfl rfl)⟩
  | shared mode =>
      cases mode with
      | single =>
          refine ⟨2, by decide, hpublish.trans (.one rfl ?_)⟩
          simp only [step, settle, Cursors.publish, if_pos htail]
      | multi =>
          -- The only access that looks at the tail before it moves it.
          have htest : Reaches shape 1 s
              ⟨side, behavior, .shared .multi, wanted, buffer, .publish claim⟩ s
              ⟨side, behavior, .shared .multi, wanted, buffer, .moveTail claim⟩ := by
            refine .one rfl ?_
            simp only [step, settle, if_pos htail, RingState.setCursors_cursors]
          exact ⟨3, by decide, hpublish.trans (htest.trans (.one rfl rfl))⟩

/-- Storing the elements from `k` on sets their slots and no other. -/
theorem reaches_stored {claim : Claim} (hfits : ¬ claim.Overruns shape.overflow) (c : Call)
    (hside : c.side = .producer) (hle : claim.len.toNat ≤ shape.capacity) (m : Nat) :
    ∀ (k : Nat) (s : RingState), k + m = claim.len.toNat → ∃ storage : Storage,
      Reaches shape m s { c with phase := .copy claim k } { s with storage := storage }
        { c with phase := .copy claim claim.len.toNat } ∧
      (∀ i, k ≤ i → i < claim.len.toNat →
        recordAt shape.elementSize storage.bytes ((claim.start.toNat + i) % shape.capacity) =
          recordAt shape.elementSize c.buffer i) ∧
      ∀ j, (∀ i, k ≤ i → i < claim.len.toNat →
        j ≠ (claim.start.toNat + i) % shape.capacity) →
        recordAt shape.elementSize storage.bytes j =
          recordAt shape.elementSize s.storage.bytes j := by
  induction m with
  | zero =>
      rintro k s rfl
      exact ⟨s.storage, .refl s _, fun i hi hlt => absurd hlt (Nat.not_lt.mpr hi), fun j _ => rfl⟩
  | succ m ih =>
      intro k s hk
      have hlt : k < claim.len.toNat := by omega
      obtain ⟨storage, hreach, hin, hout⟩ :=
        ih (k + 1) { s with storage := s.storage.putElement shape claim c.buffer k } (by omega)
      -- The elements that follow leave the slot of this one alone.
      have hslot : ∀ i, k < i → i < claim.len.toNat →
          (claim.start.toNat + k) % shape.capacity ≠ (claim.start.toNat + i) % shape.capacity := by
        intro i hi hilt heq
        have := Shape.eq_of_mod_eq (Nat.le_add_right claim.start.toNat k) (by omega)
          (Nat.le_add_right claim.start.toNat i) (by omega) heq
        omega
      refine ⟨storage, ?_, fun i hi hilt => ?_, fun j hj => ?_⟩
      · rw [Nat.add_comm]
        refine .trans (.one rfl ?_) hreach
        simp only [step, Claim.length_of_not_overruns hfits, if_pos hlt, hside]
      · rcases Nat.eq_or_lt_of_le hi with rfl | hi
        · rw [hout _ hslot, Storage.recordAt_putElement _ _ _ hlt hle, if_pos rfl]
        · exact hin i hi hilt
      · rw [hout j fun i hi hilt => hj i (Nat.le_of_succ_le hi) hilt,
          Storage.recordAt_putElement _ _ _ hlt hle, if_neg (hj k (Nat.le_refl k) hlt)]

/-- Fetching the elements from `k` on sets their records of the target and no other. -/
theorem reaches_fetched {claim : Claim} (hfits : ¬ claim.Overruns shape.overflow) (c : Call)
    (hside : c.side = .consumer) (hle : claim.len.toNat ≤ shape.capacity) (s : RingState) (m : Nat) :
    ∀ (k : Nat) (target : Array UInt8), k + m = claim.len.toNat →
      claim.len.toNat * shape.elementSize ≤ target.size → ∃ target' : Array UInt8,
      Reaches shape m s { c with buffer := target, phase := .copy claim k } s
        { c with buffer := target', phase := .copy claim claim.len.toNat } ∧
      target'.size = target.size ∧
      (∀ i, k ≤ i → i < claim.len.toNat → recordAt shape.elementSize target' i =
        recordAt shape.elementSize s.storage.bytes
          ((claim.start.toNat + i) % shape.capacity)) ∧
      ∀ j, (k ≤ j → claim.len.toNat ≤ j) →
        recordAt shape.elementSize target' j = recordAt shape.elementSize target j := by
  induction m with
  | zero =>
      rintro k target rfl -
      exact ⟨target, .refl s _, rfl, fun i hi hlt => absurd hlt (Nat.not_lt.mpr hi), fun j _ => rfl⟩
  | succ m ih =>
      intro k target hk hsize
      have hlt : k < claim.len.toNat := by omega
      have hfit : (k + 1) * shape.elementSize ≤ target.size :=
        (Nat.mul_le_mul_right _ hlt).trans hsize
      obtain ⟨target', hreach, hsize', hin, hout⟩ :=
        ih (k + 1) (s.storage.getElement shape claim target k) (by omega)
          (by rwa [Storage.size_getElement])
      refine ⟨target', ?_, ?_, fun i hi hilt => ?_, fun j hj => ?_⟩
      · rw [Nat.add_comm]
        refine .trans (.one rfl ?_) hreach
        simp only [step, Claim.length_of_not_overruns hfits, if_pos hlt, hside]
      · rw [hsize', Storage.size_getElement]
      · rcases Nat.eq_or_lt_of_le hi with rfl | hi
        · rw [hout k (fun h => absurd h (Nat.not_succ_le_self k)),
            Storage.recordAt_getElement _ _ hlt hle hfit, if_pos rfl]
        · exact hin i hi hilt
      · rw [hout j fun h => hj (Nat.le_of_succ_le h),
          Storage.recordAt_getElement _ _ hlt hle hfit, if_neg]
        rintro rfl
        exact absurd hlt (Nat.not_lt.mpr (hj (Nat.le_refl _)))

end Call

/-! ### Sides that are ready -/

/-- A side at rest that is moved by nothing. -/
theorem Cursors.mk_add_zero {k : Cursors} (hrest : k.tail = k.head) :
    (⟨k.head + 0, k.head + 0⟩ : Cursors) = k := by
  rw [UInt64.add_zero]
  cases k
  cases hrest
  rfl

/-- Elements that are published and not yet released. -/
def RingState.used (s : RingState) : Nat := (s.producer.tail - s.consumer.tail).toNat

/-- Nobody holds a claim on the side, and the ring holds no more than it can; lengths that run over
are no fault. -/
structure RingState.Ready (shape : Shape) (s : RingState) (side : Side) : Prop where
  unchecked : shape.overflow = .wrapping
  rest : (s.cursors side).tail = (s.cursors side).head
  used_le : s.used ≤ shape.capacity

namespace RingState.Ready

variable {shape : Shape} {s : RingState} {side : Side}

theorem claimable_producer (h : s.Ready shape .producer) :
    s.claimable shape .producer = shape.capacity - s.used := by
  have hrest : s.producer.tail = s.producer.head := h.rest
  rw [claimable, used, hrest]

theorem claimable_consumer (h : s.Ready shape .consumer) :
    s.claimable shape .consumer = s.used := by
  have hrest : s.consumer.tail = s.consumer.head := h.rest
  rw [claimable, used, hrest]

theorem claimable_le (h : s.Ready shape side) : s.claimable shape side ≤ shape.capacity := by
  cases side with
  | producer => exact Nat.sub_le _ _
  | consumer => exact h.claimable_consumer ▸ h.used_le

/-- A call that is alone finds what its side could claim. -/
theorem toNat_room {c : Call} (h : s.Ready shape c.side) :
    (c.room shape s).toNat = s.claimable shape c.side := by
  cases hside : c.side with
  | producer =>
      rw [hside] at h
      have hrest : s.producer.tail = s.producer.head := h.rest
      have hle := h.used_le
      rw [used, hrest] at hle
      rw [Call.room, hside]
      simp only [Call.available, cursors, Side.opposite, claimable]
      rw [UInt64.toNat_sub_of_le, Shape.toNat_capacity]
      rwa [UInt64.le_iff_toNat_le, Shape.toNat_capacity]
  | consumer =>
      rw [Call.room, hside]
      rfl

end RingState.Ready

namespace Call

variable {shape : Shape} {s : RingState}

/-- A call that is alone takes its share of the room it finds: it ends at once if that is nothing,
and else gets to its copies. -/
theorem share_cases (c : Call) (hphase : c.phase = .loadHead) {room : Nat}
    (hroom : (c.room shape s).toNat = room) (hle : room ≤ shape.capacity) :
    c.behavior.share c.wanted.toNat room = 0 ∧
        Reaches shape 2 s c s { c with phase := .done none } ∨
      ∃ k : UInt64, k.toNat = c.behavior.share c.wanted.toNat room ∧ 0 < k.toNat ∧
        let claim : Claim := ⟨(s.cursors c.side).head, (s.cursors c.side).head + k⟩
        claim.len = k ∧
          Reaches shape 3 s c (s.setCursors c.side ((s.cursors c.side).reserve claim))
            { c with phase := .copy claim 0 } := by
  have htaken : (c.taken shape s).toNat = c.behavior.share c.wanted.toNat room := by
    rw [taken, toNat_take, hroom]
  by_cases hn : c.taken shape s = 0
  · refine .inl ⟨?_, reaches_nothing hphase (hroom ▸ hle) hn⟩
    rw [← htaken, hn, UInt64.toNat_zero]
  · refine .inr ⟨c.taken shape s, htaken, ?_, Claim.len_mk _ _,
      reaches_copy hphase (hroom ▸ hle) hn⟩
    exact UInt64.lt_iff_toNat_lt.mp (UInt64.pos_iff_ne_zero.mpr hn)

/-- Alone on a side that is ready, a producer stores the first records of its buffer in the slots
after its head, and nothing else changes. -/
theorem store_alone (h : s.Ready shape .producer) (behavior : Behavior) (access : Access)
    (wanted : UInt64) (buffer : Array UInt8) :
    let c := begin .producer behavior access wanted buffer
    ∃ (k : UInt64) (storage : Storage),
      c.runAlone shape c.steps s =
        (⟨⟨s.producer.head + k, s.producer.head + k⟩, s.consumer, storage⟩,
          { c with phase := .done (Claim.granted? s.producer.head k) }) ∧
      k.toNat = behavior.share wanted.toNat (s.claimable shape .producer) ∧
      (∀ i < k.toNat, recordAt shape.elementSize storage.bytes
        ((s.producer.head.toNat + i) % shape.capacity) = recordAt shape.elementSize buffer i) ∧
      (∀ j, (∀ i < k.toNat, j ≠ (s.producer.head.toNat + i) % shape.capacity) →
        recordAt shape.elementSize storage.bytes j =
          recordAt shape.elementSize s.storage.bytes j) ∧
      (k = 0 → storage = s.storage) := by
  intro c
  have hrest : s.producer.tail = s.producer.head := h.rest
  rcases share_cases c rfl h.toNat_room h.claimable_le with
    ⟨hzero, hend⟩ | ⟨k, hk, hpos, hlen, hcopy⟩
  · refine ⟨0, s.storage, ?_, hzero.symm, nofun, fun _ _ => rfl, fun _ => rfl⟩
    rw [Cursors.mk_add_zero hrest]
    exact hend.runAlone_eq rfl (Nat.le_add_left 2 _)
  · have hwanted : k.toNat ≤ wanted.toNat := hk.trans_le (behavior.share_le_wanted _ _)
    have hfree : k.toNat ≤ s.claimable shape .producer := hk.trans_le (behavior.share_le_room _ _)
    set claim : Claim := ⟨(s.cursors c.side).head, (s.cursors c.side).head + k⟩
    have hle : claim.len.toNat ≤ shape.capacity := by
      rw [hlen]
      exact hfree.trans h.claimable_le
    have hfits := claim.not_overruns_of_wrapping h.unchecked
    obtain ⟨storage, hstored, hin, hout⟩ := reaches_stored hfits c rfl hle k.toNat 0
      (s.setCursors .producer (s.producer.reserve claim)) (by rw [hlen, Nat.zero_add])
    obtain ⟨m, hm, hdone⟩ := reaches_done
      { s.setCursors .producer (s.producer.reserve claim) with storage := storage }
      { c with phase := .copy claim claim.len.toNat } hfits rfl (Nat.le_refl _) hrest
    have hsteps : 3 + (k.toNat + m) ≤ wanted.toNat + 6 := by omega
    rw [hlen] at hin hout
    refine ⟨k, storage, ?_, hk, fun i hi => hin i (Nat.zero_le i) hi,
      fun j hj => hout j fun i _ hi => hj i hi, ?_⟩
    · rw [Claim.granted?_of_pos hpos]
      exact (hcopy.trans (hstored.trans hdone)).runAlone_eq rfl hsteps
    · rintro rfl
      exact absurd hpos (by decide)

/-- Alone on a side that is ready, a consumer fetches the records after its head to the front of its
target, and nothing else changes. -/
theorem fetch_alone (h : s.Ready shape .consumer) (behavior : Behavior) (access : Access)
    (wanted : UInt64) (target : Array UInt8)
    (hsize : wanted.toNat * shape.elementSize ≤ target.size) :
    let c := begin .consumer behavior access wanted target
    ∃ (k : UInt64) (target' : Array UInt8),
      c.runAlone shape c.steps s =
        (⟨s.producer, ⟨s.consumer.head + k, s.consumer.head + k⟩, s.storage⟩,
          { c with buffer := target', phase := .done (Claim.granted? s.consumer.head k) }) ∧
      k.toNat = behavior.share wanted.toNat (s.claimable shape .consumer) ∧
      target'.size = target.size ∧
      (∀ i < k.toNat, recordAt shape.elementSize target' i = recordAt shape.elementSize
        s.storage.bytes ((s.consumer.head.toNat + i) % shape.capacity)) ∧
      (∀ j, k.toNat ≤ j →
        recordAt shape.elementSize target' j = recordAt shape.elementSize target j) ∧
      (k = 0 → target' = target) := by
  intro c
  have hrest : s.consumer.tail = s.consumer.head := h.rest
  rcases share_cases c rfl h.toNat_room h.claimable_le with
    ⟨hzero, hend⟩ | ⟨k, hk, hpos, hlen, hcopy⟩
  · refine ⟨0, target, ?_, hzero.symm, rfl, nofun, fun _ _ => rfl, fun _ => rfl⟩
    rw [Cursors.mk_add_zero hrest]
    exact hend.runAlone_eq rfl (Nat.le_add_left 2 _)
  · have hwanted : k.toNat ≤ wanted.toNat := hk.trans_le (behavior.share_le_wanted _ _)
    have hused : k.toNat ≤ s.claimable shape .consumer := hk.trans_le (behavior.share_le_room _ _)
    set claim : Claim := ⟨(s.cursors c.side).head, (s.cursors c.side).head + k⟩
    have hcap : claim.len.toNat ≤ shape.capacity := by
      rw [hlen]
      exact hused.trans h.claimable_le
    have hfit : claim.len.toNat * shape.elementSize ≤ target.size := by
      rw [hlen]
      exact (Nat.mul_le_mul_right _ hwanted).trans hsize
    have hfits := claim.not_overruns_of_wrapping h.unchecked
    obtain ⟨target', hfetched, hsize', hin, hout⟩ := reaches_fetched hfits c rfl hcap
      (s.setCursors .consumer (s.consumer.reserve claim)) k.toNat 0 target
      (by rw [hlen, Nat.zero_add]) hfit
    obtain ⟨m, hm, hdone⟩ := reaches_done (s.setCursors .consumer (s.consumer.reserve claim))
      { c with buffer := target', phase := .copy claim claim.len.toNat } hfits rfl (Nat.le_refl _)
      hrest
    have hsteps : 3 + (k.toNat + m) ≤ wanted.toNat + 6 := by omega
    rw [hlen] at hin hout
    refine ⟨k, target', ?_, hk, hsize', fun i hi => hin i (Nat.zero_le i) hi,
      fun j hj => hout j fun _ => hj, ?_⟩
    · rw [Claim.granted?_of_pos hpos]
      exact (hcopy.trans (hfetched.trans hdone)).runAlone_eq rfl hsteps
    · rintro rfl
      exact absurd hpos (by decide)

end Call

namespace Ring

variable {r : Ring}

/-- A transfer into a ring whose producers' side is ready: what it stores and what it leaves. -/
theorem perform_store (h : r.state.Ready r.shape .producer) (behavior : Behavior)
    (access : Access) (wanted : Nat) (buffer : Array UInt8) :
    ∃ (k : UInt64) (storage : Storage),
      r.perform .producer behavior access wanted buffer = (.ok k.toNat, buffer,
        { r with state := ⟨⟨r.state.producer.head + k, r.state.producer.head + k⟩,
          r.state.consumer, storage⟩ }) ∧
      k.toNat = behavior.share wanted.toUInt64.toNat (r.state.claimable r.shape .producer) ∧
      (∀ i < k.toNat, recordAt r.elementSize storage.bytes
        ((r.state.producer.head.toNat + i) % r.capacity) = recordAt r.elementSize buffer i) ∧
      (∀ j, (∀ i < k.toNat, j ≠ (r.state.producer.head.toNat + i) % r.capacity) →
        recordAt r.elementSize storage.bytes j =
          recordAt r.elementSize r.state.storage.bytes j) ∧
      (k = 0 → storage = r.state.storage) := by
  obtain ⟨name, shape, producer, consumer, state⟩ := r
  obtain ⟨k, storage, hrun, hmoved⟩ :=
    Call.store_alone h behavior access wanted.toUInt64 buffer
  refine ⟨k, storage, ?_, hmoved⟩
  rw [perform]
  dsimp only at hrun ⊢
  rw [hrun]
  exact congrArg (fun n => (Except.ok n, _)) (Claim.len_granted? _ _)

/-- A transfer out of a ring whose consumers' side is ready: what it fetches and what it leaves. -/
theorem perform_fetch (h : r.state.Ready r.shape .consumer) (behavior : Behavior)
    (access : Access) (wanted : Nat) (target : Array UInt8)
    (hsize : wanted.toUInt64.toNat * r.elementSize ≤ target.size) :
    ∃ (k : UInt64) (target' : Array UInt8),
      r.perform .consumer behavior access wanted target = (.ok k.toNat, target',
        { r with state := ⟨r.state.producer,
          ⟨r.state.consumer.head + k, r.state.consumer.head + k⟩, r.state.storage⟩ }) ∧
      k.toNat = behavior.share wanted.toUInt64.toNat (r.state.claimable r.shape .consumer) ∧
      target'.size = target.size ∧
      (∀ i < k.toNat, recordAt r.elementSize target' i = recordAt r.elementSize
        r.state.storage.bytes ((r.state.consumer.head.toNat + i) % r.capacity)) ∧
      (∀ j, k.toNat ≤ j → recordAt r.elementSize target' j = recordAt r.elementSize target j) ∧
      (k = 0 → target' = target) := by
  obtain ⟨name, shape, producer, consumer, state⟩ := r
  obtain ⟨k, target', hrun, hmoved⟩ :=
    Call.fetch_alone h behavior access wanted.toUInt64 target hsize
  refine ⟨k, target', ?_, hmoved⟩
  rw [perform]
  dsimp only at hrun ⊢
  rw [hrun]
  exact congrArg (fun n => (Except.ok n, _)) (Claim.len_granted? _ _)

end Ring

/-! ### Rings at rest -/

/-- The ring is at rest and holds the records `q`, oldest first; lengths that run over are no
fault. -/
structure RingState.Holds (shape : Shape) (s : RingState) (q : List (List UInt8)) : Prop where
  unchecked : shape.overflow = .wrapping
  producer_rest : s.producer.tail = s.producer.head
  consumer_rest : s.consumer.tail = s.consumer.head
  length_le : q.length ≤ shape.capacity
  filled : (s.producer.head - s.consumer.head).toNat = q.length
  record : ∀ (i : Nat) (h : i < q.length), recordAt shape.elementSize s.storage.bytes
    ((s.consumer.head.toNat + i) % shape.capacity) = q[i]

/-- The slot after a position that may have wrapped. -/
theorem Shape.mod_add_word (shape : Shape) (p n : UInt64) (i : Nat) :
    ((p + n).toNat + i) % shape.capacity = (p.toNat + (n.toNat + i)) % shape.capacity := by
  rw [UInt64.toNat_add, Nat.add_mod, shape.mod_word_mod, ← Nat.add_mod, Nat.add_assoc]

namespace RingState.Holds

variable {shape : Shape} {s : RingState} {q : List (List UInt8)}

theorem initial (h : shape.overflow = .wrapping) (start : UInt64) :
    (RingState.startingAt start).Holds shape [] where
  unchecked := h
  producer_rest := rfl
  consumer_rest := rfl
  length_le := Nat.zero_le _
  filled := by
    rw [RingState.startingAt, Cursors.startingAt, UInt64.sub_self]
    rfl
  record := nofun

/-- The slots of new positions, from the oldest record on. -/
theorem slot_producer (h : s.Holds shape q) (i : Nat) :
    (s.producer.head.toNat + i) % shape.capacity =
      (s.consumer.head.toNat + (q.length + i)) % shape.capacity := by
  rw [← h.filled, ← shape.mod_add_word, UInt64.add_comm, UInt64.sub_add_cancel]

theorem used_eq (h : s.Holds shape q) : s.used = q.length := by
  rw [RingState.used, h.producer_rest, h.consumer_rest, h.filled]

theorem ready (h : s.Holds shape q) (side : Side) : s.Ready shape side where
  unchecked := h.unchecked
  rest := by
    cases side with
    | producer => exact h.producer_rest
    | consumer => exact h.consumer_rest
  used_le := h.used_eq ▸ h.length_le

/-- Records stored behind those that a ring holds. -/
theorem store (h : s.Holds shape q) {storage : Storage} {n : UInt64} {records : List (List UInt8)}
    (hn : n.toNat = records.length) (hle : q.length + records.length ≤ shape.capacity)
    (hin : ∀ (i : Nat) (hi : i < records.length), recordAt shape.elementSize storage.bytes
      ((s.producer.head.toNat + i) % shape.capacity) = records[i])
    (hout : ∀ j, (∀ i < records.length, j ≠ (s.producer.head.toNat + i) % shape.capacity) →
      recordAt shape.elementSize storage.bytes j =
        recordAt shape.elementSize s.storage.bytes j) :
    RingState.Holds shape ⟨⟨s.producer.head + n, s.producer.head + n⟩, s.consumer, storage⟩
      (q ++ records) where
  unchecked := h.unchecked
  producer_rest := rfl
  consumer_rest := h.consumer_rest
  length_le := by rwa [List.length_append]
  filled := by
    have hmax := shape.capacity_le
    rw [maxCapacity] at hmax
    have hsum : s.producer.head + n - s.consumer.head =
        s.producer.head - s.consumer.head + n := by grind
    dsimp only
    rw [hsum, UInt64.toNat_add, h.filled, hn, Nat.mod_eq_of_lt (by omega), List.length_append]
  record i hi := by
    rw [List.length_append] at hi
    by_cases hold : i < q.length
    · rw [List.getElem_append_left hold, ← h.record i hold]
      -- All positions lie within one capacity, so a new slot is none of those in use.
      refine hout _ fun j hj heq => ?_
      rw [h.slot_producer] at heq
      have := Shape.eq_of_mod_eq (Nat.le_add_right s.consumer.head.toNat i) (by omega)
        (Nat.le_add_right s.consumer.head.toNat (q.length + j)) (by omega) heq
      omega
    · obtain ⟨j, rfl⟩ := Nat.exists_eq_add_of_le (Nat.not_lt.mp hold)
      rw [List.getElem_append_right (Nat.le_add_right _ _), ← h.slot_producer, hin j (by omega)]
      simp only [Nat.add_sub_cancel_left]

/-- Records fetched from the front of those that a ring holds. -/
theorem fetch (h : s.Holds shape q) {n : UInt64} (hle : n.toNat ≤ q.length) :
    RingState.Holds shape ⟨s.producer, ⟨s.consumer.head + n, s.consumer.head + n⟩, s.storage⟩
      (q.drop n.toNat) where
  unchecked := h.unchecked
  producer_rest := h.producer_rest
  consumer_rest := rfl
  length_le := by
    rw [List.length_drop]
    exact (Nat.sub_le _ _).trans h.length_le
  filled := by
    have hdiff : s.producer.head - (s.consumer.head + n) =
        s.producer.head - s.consumer.head - n := by grind
    dsimp only
    rw [hdiff, UInt64.toNat_sub_of_le, h.filled, List.length_drop]
    rw [UInt64.le_iff_toNat_le, h.filled]
    exact hle
  record i hi := by
    rw [List.length_drop] at hi
    rw [List.getElem_drop, ← h.record (n.toNat + i) (by omega), shape.mod_add_word]

end RingState.Holds

namespace Ring

variable {r : Ring} {q : List (List UInt8)}

/-- The ring is at rest and holds the records `q`, oldest first. -/
def Holds (r : Ring) (q : List (List UInt8)) : Prop := r.state.Holds r.shape q

/-- A transfer into a ring at rest stores the first records of its buffer behind the others. -/
theorem perform_producer (h : r.Holds q) (behavior : Behavior) (access : Access) {wanted : Nat}
    (hwanted : wanted < UInt64.size) (buffer : Array UInt8) :
    let n := behavior.share wanted (r.capacity - q.length)
    ∃ r' : Ring, r.perform .producer behavior access wanted buffer = (.ok n, buffer, r') ∧
      r'.shape = r.shape ∧
      r'.Holds (q ++ (List.range n).map (recordAt r.elementSize buffer)) := by
  intro n
  obtain ⟨k, storage, hperform, hk, hin, hout, -⟩ :=
    perform_store (h.ready .producer) behavior access wanted buffer
  rw [UInt64.toNat_ofNat_of_lt' hwanted, (h.ready .producer).claimable_producer, h.used_eq] at hk
  have hfree : n ≤ r.capacity - q.length := behavior.share_le_room _ _
  have hcap : q.length ≤ r.capacity := h.length_le
  change k.toNat = n at hk
  rw [hk] at hperform hin hout
  refine ⟨_, hperform, rfl, RingState.Holds.store h ?_ ?_ (fun i hi => ?_) fun j hj => ?_⟩
  · rw [List.length_map, List.length_range, hk]
  · rw [List.length_map, List.length_range]
    change _ ≤ r.capacity
    omega
  · rw [List.length_map, List.length_range] at hi
    rw [List.getElem_map, List.getElem_range]
    exact hin i hi
  · rw [List.length_map, List.length_range] at hj
    exact hout j hj

/-- A transfer out of a ring at rest fetches its first records to the front of the target. -/
theorem perform_consumer (h : r.Holds q) (behavior : Behavior) (access : Access) {wanted : Nat}
    (hwanted : wanted < UInt64.size) (target : Array UInt8)
    (hsize : wanted * r.elementSize ≤ target.size) :
    let n := behavior.share wanted q.length
    ∃ target' : Array UInt8, ∃ r' : Ring,
      r.perform .consumer behavior access wanted target = (.ok n, target', r') ∧
      r'.shape = r.shape ∧ target'.size = target.size ∧
      (∀ (i : Nat) (hi : i < q.length), i < n → recordAt r.elementSize target' i = q[i]) ∧
      (∀ i, n ≤ i → recordAt r.elementSize target' i = recordAt r.elementSize target i) ∧
      r'.Holds (q.drop n) := by
  intro n
  have hnat : wanted.toUInt64.toNat = wanted := UInt64.toNat_ofNat_of_lt' hwanted
  obtain ⟨k, target', hperform, hk, hsize', hin, hout, -⟩ :=
    perform_fetch (h.ready .consumer) behavior access wanted target (by rwa [hnat])
  rw [hnat, (h.ready .consumer).claimable_consumer, h.used_eq] at hk
  have hused : n ≤ q.length := behavior.share_le_room _ _
  change k.toNat = n at hk
  rw [hk] at hperform hin hout
  refine ⟨target', _, hperform, rfl, hsize', fun i hi hlt => ?_, hout, ?_⟩
  · rw [hin i hlt]
    exact h.record i hi
  · rw [← hk]
    exact RingState.Holds.fetch h (hk ▸ hused)

end Ring

/-! ### Rings in any state -/

/-- The call was asked for `n` elements at most, and neither tries to claim nor has claimed more. -/
structure Call.Modest (n : Nat) (c : Call) : Prop where
  wanted_le : c.wanted.toNat ≤ n
  len_le : ∀ claim, c.phase = .exchange claim ∨ c.claim? = some claim → claim.len.toNat ≤ n

theorem Call.Modest.progress {shape : Shape} {s s' : RingState} {c c' : Call} {n : Nat}
    (h : c.Modest n) (hp : c.Progress shape s s' c') : c'.Modest n := by
  have hkept : ∀ claim, c.claim? = some claim → claim.len.toNat ≤ n :=
    fun claim hclaim => h.len_le claim (.inr hclaim)
  cases hp with
  | stay => exact h
  | loadHead phase | retry phase | breakClaim phase =>
      refine ⟨h.wanted_le, ?_⟩
      rintro a (ha | ha) <;> cases ha
  | decide phase =>
      rename_i start
      refine ⟨h.wanted_le, fun a ha => ?_⟩
      rcases Call.decide_cases shape c start (s.cursors c.side.opposite).tail with
        hd | hd | ⟨claim, hd, -, hlen, -⟩
      · rcases ha with ha | ha <;> simp [hd, Call.claim?] at ha
      · rcases ha with ha | ha <;> simp [hd, Call.claim?] at ha
      · obtain rfl : claim = a := by
          rcases ha with ha | ha
          · rw [hd] at ha
            exact Phase.exchange.inj ha
          · simp [hd, Call.claim?] at ha
        rw [hlen]
        exact (take_le_wanted ..).trans h.wanted_le
  | grant phase head =>
      refine ⟨h.wanted_le, ?_⟩
      rintro a (ha | ha) <;> cases ha
      exact h.len_le _ (.inl phase)
  | copyIn phase | copyOut phase | copied phase | overrun phase | seeTail phase
  | breakPublication phase =>
      refine ⟨h.wanted_le, ?_⟩
      rintro a (ha | ha) <;> cases ha
      exact hkept _ (by rw [Call.claim?, phase])
  | publish phase =>
      refine ⟨h.wanted_le, ?_⟩
      rintro a (ha | ha) <;> cases ha
      rcases phase with phase | phase <;> exact hkept _ (by rw [Call.claim?, phase])

theorem Call.Modest.runAlone {shape : Shape} {n : Nat} (fuel : Nat) :
    ∀ {s : RingState} {c : Call}, c.access ≠ .owned → c.Modest n →
      (c.runAlone shape fuel s).2.Modest n := by
  induction fuel with
  | zero => intro s c _ h; exact h
  | succ fuel ih =>
      intro s c hshared h
      rw [Call.runAlone]
      split
      · exact h
      · have haccess : (c.step shape s).2.access ≠ .owned := by rwa [access_step]
        exact ih haccess (h.progress (progress_shared shape s hshared))

/-- A transfer beside others moves no more than was asked for, whatever the state of the ring. -/
theorem Ring.perform_le {r : Ring} {side : Side} {behavior : Behavior} {mode : SyncMode}
    {wanted : Nat} {buffer : Array UInt8} {n : Nat}
    (h : (r.perform side behavior (.shared mode) wanted buffer).1 = .ok n) : n ≤ wanted := by
  obtain ⟨name, shape, producer, consumer, state⟩ := r
  set c := Call.begin side behavior (.shared mode) wanted.toUInt64 buffer with hc
  have hbegin : c.Modest wanted := by
    refine ⟨Nat.mod_le _ _, ?_⟩
    rintro a (ha | ha) <;> cases ha
  have hmodest : (c.runAlone shape c.steps state).2.Modest wanted :=
    hbegin.runAlone c.steps (by rw [hc]; nofun)
  rw [perform] at h
  dsimp only at h
  rw [← hc] at h
  split at h
  · rename_i claim hcall
    cases claim with
    | none => cases h; exact Nat.zero_le _
    | some claim =>
        cases h
        exact hmodest.len_le claim (.inr (by rw [hcall]; rfl))
  · cases h
  · cases h

/-- A ring accepts no more handles than it is offered. -/
theorem Ring.enqueue_le {r : Ring} {handles : Array UInt64} {t : Transfer} {n : Nat}
    (h : (r.enqueue handles t).1 = .ok n) : n ≤ handles.size := by
  rw [enqueue, putHandles] at h
  split at h
  · cases h
  · exact perform_le h

end BurstRing
