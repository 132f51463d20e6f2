import BurstRing.Proofs.Ring.Exclusive
import Mathlib.Data.List.Pairwise

/-!
# What is fetched is what was stored

A call *carries* a record at a position when it has copied that record there, into the slot or out
of it (`Call.Carries`).  Beside the order of the cursors, two things hold in every state of every
run (`Faithful`): a slot holds what a producer has stored at its position until the position is
released, and whatever a consumer has fetched at a position, a producer has stored there.

Storing an element cannot spoil a slot in use, because all positions in use lie within one capacity
of the consumers' tail and no two of them share a slot.  Fetching one finds the slot filled,
because a consumer's head does not pass the producers' tail.

What is carried at a position is one record (`Consistent.carried_unique`), and every position below
the producers' tail has been stored (`Consistent.exists_stored`), because the claims tile.
-/

namespace BurstRing

/-- The call has copied record `x` at position `p`. -/
def Call.Carries (width : Nat) (c : Call) (p : Nat) (x : List UInt8) : Prop :=
  ∃ claim, c.claim? = some claim ∧ ∃ i, i < c.copied ∧ p = claim.start.toNat + i ∧
    x = recordAt width c.buffer i

/-- Some call of a side has copied record `x` at position `p`. -/
def Carried (width : Nat) (side : Side) (calls : List Call) (p : Nat) (x : List UInt8) : Prop :=
  ∃ c ∈ calls, c.side = side ∧ c.Carries width p x

/-- Slots hold what was stored, consumers have what was stored, and their buffers have room. -/
structure Faithful (shape : Shape) (s : RingState) (calls : List Call) : Prop where
  stored : ∀ p x, Carried shape.elementSize .producer calls p x → s.consumer.tail.toNat ≤ p →
    recordAt shape.elementSize s.storage.bytes (p % shape.capacity) = x
  fetched : ∀ p x, Carried shape.elementSize .consumer calls p x →
    Carried shape.elementSize .producer calls p x
  room : ∀ c ∈ calls, c.wanted.toNat * shape.elementSize ≤ c.buffer.size

/-! ### Granted claims -/

namespace Consistent

variable {shape : Shape} {s : RingState} {calls rest : List Call} {c d : Call} {claim : Claim}

theorem granted_bounds (h : Consistent shape s calls) (hc : c ∈ calls)
    (hclaim : c.claim? = some claim) : claim.start.toNat < claim.stop.toNat ∧
      claim.stop.toNat ≤ (s.cursors c.side).head.toNat := by
  rcases c.claim?_cases with ⟨hheld, -⟩ | ⟨-, hpublished⟩
  · exact ((h.tiled c.side).held_bounds
      (mem_claimsOn.mpr ⟨c, hc, rfl, hheld.trans hclaim⟩)).2
  · have hb := (h.tiled c.side).published_bounds
      (mem_claimsOn.mpr ⟨c, hc, rfl, hpublished.trans hclaim⟩)
    exact ⟨hb.1, hb.2.trans (h.tiled c.side).tail_le_head⟩

theorem granted_apart (h : Consistent shape s calls) (side : Side) :
    (claimsOn side Call.claim? calls).Pairwise Claim.Apart :=
  (claimsOn_claim?_perm side calls).symm.pairwise (h.tiled side).all_apart fun h => h.symm

theorem granted_covers (h : Consistent shape s calls) (side : Side) (p : Nat) :
    (∃ a ∈ claimsOn side Call.claim? calls, a.Covers p) ↔
      p < (s.cursors side).head.toNat := by
  have hle := (h.tiled side).tail_le_head
  have hpublished := (h.tiled side).published_covers p
  have hheld := (h.tiled side).held_covers p
  simp only [(claimsOn_claim?_perm side calls).mem_iff, List.mem_append, or_and_right,
    exists_or, hpublished, hheld]
  omega

theorem copied_le (h : Consistent shape s calls) (hc : c ∈ calls)
    (hclaim : c.claim? = some claim) : c.copied ≤ claim.len.toNat := by
  have hsound := h.sound c hc
  unfold Call.claim? at hclaim
  unfold Call.Sound at hsound
  unfold Call.copied
  cases hphase : c.phase <;> simp only [hphase] at hclaim hsound ⊢ <;> cases hclaim
  · exact hsound.1
  · exact Nat.le_refl _
  · exact Nat.le_refl _
  · exact Nat.le_refl _
  · rename_i panic
    cases panic with
    | concurrentPublication => exact Nat.le_refl _
    | _ => exact Nat.zero_le _

theorem covers_of_copied (h : Consistent shape s calls) (hc : c ∈ calls)
    (hclaim : c.claim? = some claim) {i : Nat} (hi : i < c.copied) :
    claim.Covers (claim.start.toNat + i) :=
  Claim.covers_add (h.granted_bounds hc hclaim).1.le
    (Nat.lt_of_lt_of_le hi (h.copied_le hc hclaim))

/-- Two calls of one side whose claims share a position are one. -/
theorem eq_of_covers (h : Consistent shape s calls) (hc : c ∈ calls) (hd : d ∈ calls)
    (hside : c.side = d.side) {b : Claim} (hclaim : c.claim? = some claim)
    (hb : d.claim? = some b) {p : Nat} (hp : claim.Covers p) (hp' : b.Covers p) : c = d := by
  by_contra hne
  have hpairs := List.pairwise_filterMap.mp (h.granted_apart c.side)
  have hsymm : Std.Symm fun c' d' : Call =>
      ∀ a, (if c'.side = c.side then c'.claim? else none) = some a →
      ∀ b, (if d'.side = c.side then d'.claim? else none) = some b → a.Apart b :=
    ⟨fun _ _ hr a ha b hb => (hr b hb a ha).symm⟩
  have hapart := hpairs.forall hc hd hne claim (by rw [if_pos rfl, hclaim]) b
    (by rw [if_pos hside.symm, hb])
  exact hapart p hp hp'

/-- At one position a side has copied one record at most. -/
theorem carried_unique (h : Consistent shape s calls) {width p : Nat} {side : Side}
    {x y : List UInt8} (hx : Carried width side calls p x) (hy : Carried width side calls p y) :
    x = y := by
  obtain ⟨c, hc, hcs, a, ha, i, hi, rfl, rfl⟩ := hx
  obtain ⟨d, hd, hds, b, hb, j, hj, hp, rfl⟩ := hy
  obtain rfl : c = d := h.eq_of_covers hc hd (hcs.trans hds.symm) ha hb
    (h.covers_of_copied hc ha hi) (hp ▸ h.covers_of_copied hd hb hj)
  obtain rfl : a = b := Option.some.inj (ha.symm.trans hb)
  rw [Nat.add_left_cancel hp]

/-- A published range has been copied to its end. -/
theorem carries_of_published (h : Consistent shape s calls) (hc : c ∈ calls)
    (hclaim : c.published? = some claim) {p : Nat} (hp : claim.Covers p) (width : Nat) :
    c.Carries width p (recordAt width c.buffer (p - claim.start.toNat)) := by
  have hphase : c.phase = .done (some claim) := by
    unfold Call.published? at hclaim
    split at hclaim
    · rw [← hclaim]
      assumption
    · cases hclaim
  have hgranted : c.claim? = some claim := by rw [Call.claim?, hphase]
  have hlen := Claim.toNat_len (h.granted_bounds hc hgranted).1.le
  obtain ⟨hp₁, hp₂⟩ := hp
  refine ⟨claim, hgranted, p - claim.start.toNat, ?_, by omega, rfl⟩
  simp only [Call.copied, hphase]
  omega

/-- Every position below the producers' tail has been stored. -/
theorem exists_stored (h : Consistent shape s calls) {p : Nat}
    (hp : p < s.producer.tail.toNat) : ∃ e ∈ calls, e.side = .producer ∧
      ∃ b, e.phase = .done (some b) ∧ b.Covers p := by
  obtain ⟨b, hb, hcov⟩ := ((h.tiled .producer).published_covers p).mpr hp
  obtain ⟨e, he, hes, hpublished⟩ := mem_claimsOn.mp hb
  refine ⟨e, he, hes, b, ?_, hcov⟩
  unfold Call.published? at hpublished
  split at hpublished
  · rw [← hpublished]
    assumption
  · cases hpublished

end Consistent

/-! ### What a step keeps -/

section Carried

variable {width : Nat} {side : Side} {rest : List Call} {c c' : Call} {p : Nat} {x : List UInt8}

theorem carried_cons : Carried width side (c :: rest) p x ↔
    c.side = side ∧ c.Carries width p x ∨ Carried width side rest p x := by
  simp only [Carried, List.mem_cons, exists_eq_or_imp]

/-- A call without a claim carries nothing. -/
theorem Call.not_carries (h : c.claim? = none) : ¬ c.Carries width p x := by
  rintro ⟨claim, hclaim, -⟩
  rw [h] at hclaim
  cases hclaim

/-- What a call carries depends on its claim, its buffer and how far it has copied. -/
theorem Call.carries_congr (hclaim : c'.claim? = c.claim?) (hbuffer : c'.buffer = c.buffer)
    (hcopied : c'.copied = c.copied) : c'.Carries width p x ↔ c.Carries width p x := by
  rw [Carries, Carries, hclaim, hbuffer, hcopied]

/-- One element further a call carries one record more. -/
theorem Call.carries_next {claim : Claim} {k : Nat} (hphase : c.phase = .copy claim k) :
    ({ c with phase := .copy claim (k + 1) } : Call).Carries width p x ↔
      c.Carries width p x ∨ p = claim.start.toNat + k ∧ x = recordAt width c.buffer k := by
  have hclaim : c.claim? = some claim := by rw [Call.claim?, hphase]
  have hcopied : c.copied = k := by rw [Call.copied, hphase]
  constructor
  · rintro ⟨a, ha, i, hi, rfl, rfl⟩
    cases ha
    rcases Nat.lt_succ_iff_lt_or_eq.mp hi with hi | rfl
    · exact .inl ⟨claim, hclaim, i, hcopied ▸ hi, rfl, rfl⟩
    · exact .inr ⟨rfl, rfl⟩
  · rintro (⟨a, ha, i, hi, rfl, rfl⟩ | ⟨rfl, rfl⟩)
    · obtain rfl : claim = a := Option.some.inj (hclaim.symm.trans ha)
      exact ⟨claim, rfl, i, (hcopied ▸ hi).trans (Nat.lt_succ_self k), rfl, rfl⟩
    · exact ⟨claim, rfl, k, Nat.lt_succ_self k, rfl, rfl⟩

/-- The next element of a producer lies in no slot that is in use. -/
theorem Consistent.slot_ne_of_carried {shape : Shape} {s : RingState} {calls : List Call}
    (h : Consistent shape s calls) (hc : c ∈ calls) {claim : Claim} {k : Nat}
    (hphase : c.phase = .copy claim k) (hk : k < claim.len.toNat) (hside : c.side = .producer)
    (hx : Carried width .producer calls p x) (hp : s.consumer.tail.toNat ≤ p) :
    p % shape.capacity ≠ (claim.start.toNat + k) % shape.capacity := by
  have hclaim : c.claim? = some claim := by rw [Call.claim?, hphase]
  have hheld : c.held? = some claim := by rw [Call.held?, hphase]
  have hcopied : c.copied = k := by rw [Call.copied, hphase]
  have hcov : claim.Covers (claim.start.toNat + k) :=
    Claim.covers_add (h.granted_bounds hc hclaim).1.le hk
  have hwindow := h.held_window hc hheld hcov
  have hhorizon : s.producer.head.toNat ≤ s.consumer.tail.toNat + shape.capacity :=
    h.head_le .producer
  intro heq
  obtain ⟨d, hd, hds, a, ha, i, hi, rfl, -⟩ := hx
  have hcov' := h.covers_of_copied hd ha hi
  have hstop := (h.granted_bounds hd ha).2
  rw [hds] at hstop
  have hpos := Shape.eq_of_mod_eq hp
    (Nat.lt_of_lt_of_le hcov'.2 (hstop.trans hhorizon)) hwindow.1 hwindow.2 heq
  obtain rfl := h.eq_of_covers hd hc (hds.trans hside.symm) ha hclaim hcov' (hpos ▸ hcov)
  obtain rfl : claim = a := Option.some.inj (hclaim.symm.trans ha)
  omega

end Carried

namespace Faithful

variable {shape : Shape} {s s' : RingState} {calls calls' rest : List Call} {c c' : Call}

theorem initial (shape : Shape) (s : RingState) : Faithful shape s [] where
  stored _ _ := by rintro ⟨c, hc, -⟩; cases hc
  fetched _ _ := by rintro ⟨c, hc, -⟩; cases hc
  room := nofun

theorem carried_perm {width : Nat} {side : Side} {p : Nat} {x : List UInt8}
    (hp : calls.Perm calls') : Carried width side calls p x ↔ Carried width side calls' p x := by
  simp only [Carried, hp.mem_iff]

theorem perm (hp : calls.Perm calls') (h : Faithful shape s calls) :
    Faithful shape s calls' where
  stored q x hx := h.stored q x ((carried_perm hp).mpr hx)
  fetched q x hx := (carried_perm hp).mp (h.fetched q x ((carried_perm hp).mpr hx))
  room c hc := h.room c (hp.mem_iff.mpr hc)

theorem begin (h : Faithful shape s calls) (hphase : c.phase = .loadHead)
    (hroom : c.wanted.toNat * shape.elementSize ≤ c.buffer.size) :
    Faithful shape s (c :: calls) := by
  have hnone : c.claim? = none := by rw [Call.claim?, hphase]
  have hsame : ∀ side p x, Carried shape.elementSize side (c :: calls) p x ↔
      Carried shape.elementSize side calls p x := by
    intro side p x
    rw [carried_cons]
    simp only [c.not_carries hnone, and_false, false_or]
  refine ⟨fun p x hx => h.stored p x ((hsame _ p x).mp hx), fun p x hx => ?_, fun d hd => ?_⟩
  · exact (hsame _ p x).mpr (h.fetched p x ((hsame _ p x).mp hx))
  · rcases List.mem_cons.mp hd with rfl | hd
    · exact hroom
    · exact h.room d hd

/-- A call that carries the same as before changes nothing, nor does a later tail. -/
theorem replace (h : Faithful shape s (c :: rest)) (hside : c'.side = c.side)
    (hclaim : c'.claim? = c.claim?) (hcopied : c'.copied = c.copied)
    (hbuffer : c'.buffer = c.buffer) (hwanted : c'.wanted = c.wanted)
    (hstorage : s'.storage = s.storage)
    (htail : s.consumer.tail.toNat ≤ s'.consumer.tail.toNat) :
    Faithful shape s' (c' :: rest) := by
  have hsame : ∀ side p x, Carried shape.elementSize side (c' :: rest) p x ↔
      Carried shape.elementSize side (c :: rest) p x := by
    intro side p x
    rw [carried_cons, carried_cons, hside, Call.carries_congr hclaim hbuffer hcopied]
  refine ⟨fun p x hx hp => ?_, fun p x hx => ?_, fun d hd => ?_⟩
  · rw [hstorage]
    exact h.stored p x ((hsame _ p x).mp hx) (htail.trans hp)
  · exact (hsame _ p x).mpr (h.fetched p x ((hsame _ p x).mp hx))
  · rcases List.mem_cons.mp hd with rfl | hd
    · rw [hwanted, hbuffer]
      exact h.room c List.mem_cons_self
    · exact h.room d (List.mem_cons_of_mem _ hd)

/-- A call that just got its claim carries nothing yet. -/
theorem grant (h : Faithful shape s (c :: rest)) {claim : Claim} (hnone : c.claim? = none)
    (hstorage : s'.storage = s.storage) (htail : s'.consumer.tail = s.consumer.tail) :
    Faithful shape s' ({ c with phase := .copy claim 0 } :: rest) := by
  have hsame : ∀ side p x,
      Carried shape.elementSize side ({ c with phase := .copy claim 0 } :: rest) p x ↔
        Carried shape.elementSize side (c :: rest) p x := by
    intro side p x
    rw [carried_cons, carried_cons]
    refine or_congr ⟨?_, ?_⟩ Iff.rfl
    · rintro ⟨-, -, -, i, hi, -⟩
      exact absurd hi (Nat.not_lt_zero i)
    · rintro ⟨-, hx⟩
      exact absurd hx (c.not_carries hnone)
  refine ⟨fun p x hx hp => ?_, fun p x hx => ?_, fun d hd => ?_⟩
  · rw [hstorage]
    exact h.stored p x ((hsame _ p x).mp hx) (htail ▸ hp)
  · exact (hsame _ p x).mpr (h.fetched p x ((hsame _ p x).mp hx))
  · rcases List.mem_cons.mp hd with rfl | hd
    · exact h.room c List.mem_cons_self
    · exact h.room d (List.mem_cons_of_mem _ hd)

/-- What is published and not yet released can be read off the slots. -/
theorem carried_slot {calls : List Call} (h : Faithful shape s calls)
    (hcons : Consistent shape s calls) {p : Nat} (htail : s.consumer.tail.toNat ≤ p)
    (hlt : p < s.producer.tail.toNat) :
    Carried shape.elementSize .producer calls p
      (recordAt shape.elementSize s.storage.bytes (p % shape.capacity)) := by
  obtain ⟨e, he, hes, b, hphase, hcov⟩ := hcons.exists_stored hlt
  have hcarries := hcons.carries_of_published he (by rw [Call.published?, hphase]) hcov
    shape.elementSize
  have hx : Carried shape.elementSize .producer calls p _ := ⟨e, he, hes, hcarries⟩
  rw [h.stored _ _ hx htail]
  exact hx

/-- Storing an element fills its slot and leaves all others that are in use. -/
theorem copyIn (h : Faithful shape s (c :: rest)) (hcons : Consistent shape s (c :: rest))
    {claim : Claim} {k : Nat} (hphase : c.phase = .copy claim k) (hk : k < claim.len.toNat)
    (hside : c.side = .producer) :
    Faithful shape { s with storage := s.storage.putElement shape claim c.buffer k }
      ({ c with phase := .copy claim (k + 1) } :: rest) := by
  have hc : c ∈ c :: rest := List.mem_cons_self
  have hheld : c.held? = some claim := by rw [Call.held?, hphase]
  have hlen := hcons.held_len_le hc hheld
  refine ⟨fun p x hx hp => ?_, fun p x hx => ?_, fun d hd => ?_⟩
  · rw [Storage.recordAt_putElement _ _ _ hk hlen]
    rw [carried_cons, Call.carries_next hphase] at hx
    have hx' : Carried shape.elementSize .producer (c :: rest) p x ∨
        p = claim.start.toNat + k ∧ x = recordAt shape.elementSize c.buffer k := by
      rw [carried_cons]
      tauto
    rcases hx' with hx' | ⟨rfl, rfl⟩
    · rw [if_neg (hcons.slot_ne_of_carried hc hphase hk hside hx' hp)]
      exact h.stored p x hx' hp
    · rw [if_pos rfl]
  · have hx' : Carried shape.elementSize .consumer (c :: rest) p x := by
      rw [carried_cons] at hx ⊢
      rcases hx with ⟨hs, -⟩ | hx
      · rw [hside] at hs
        cases hs
      · exact .inr hx
    have hst := h.fetched p x hx'
    rw [carried_cons] at hst ⊢
    rw [Call.carries_next hphase]
    tauto
  · rcases List.mem_cons.mp hd with rfl | hd
    · exact h.room c hc
    · exact h.room d (List.mem_cons_of_mem _ hd)

/-- Fetching an element takes what was stored at its position. -/
theorem copyOut (h : Faithful shape s (c :: rest)) (hcons : Consistent shape s (c :: rest))
    {claim : Claim} {k : Nat} (hphase : c.phase = .copy claim k) (hk : k < claim.len.toNat)
    (hside : c.side = .consumer) :
    Faithful shape s ({ c with buffer := s.storage.getElement shape claim c.buffer k,
                               phase := .copy claim (k + 1) } :: rest) := by
  have hc : c ∈ c :: rest := List.mem_cons_self
  have hclaim : c.claim? = some claim := by rw [Call.claim?, hphase]
  have hheld : c.held? = some claim := by rw [Call.held?, hphase]
  have hcopied : c.copied = k := by rw [Call.copied, hphase]
  have hbounds := hcons.granted_bounds hc hclaim
  have hcov : claim.Covers (claim.start.toNat + k) := Claim.covers_add hbounds.1.le hk
  have hwindow := hcons.held_window hc hheld hcov
  have hhorizon : s.consumer.head.toNat ≤ s.producer.tail.toNat := hcons.head_le .consumer
  have hstop := hbounds.2
  rw [hside] at hstop
  simp only [RingState.cursors] at hstop
  have hlen := hcons.held_len_le hc hheld
  have hroom : (k + 1) * shape.elementSize ≤ c.buffer.size := by
    have hsound := hcons.sound c hc
    simp only [Call.Sound, hphase] at hsound
    exact (Nat.mul_le_mul_right _ (by omega)).trans (h.room c hc)
  have hstored := h.carried_slot hcons hwindow.1 (Nat.lt_of_lt_of_le hcov.2 (hstop.trans hhorizon))
  have hproducer : ∀ p x, Carried shape.elementSize .producer
      ({ c with buffer := s.storage.getElement shape claim c.buffer k,
                phase := .copy claim (k + 1) } :: rest) p x ↔
        Carried shape.elementSize .producer (c :: rest) p x := by
    intro p x
    rw [carried_cons, carried_cons]
    simp only [hside, reduceCtorEq, false_and]
  refine ⟨fun p x hx hp => ?_, fun p x hx => ?_, fun d hd => ?_⟩
  · exact h.stored p x ((hproducer p x).mp hx) hp
  · refine (hproducer p x).mpr ?_
    rw [carried_cons] at hx
    rcases hx with ⟨-, a, ha, i, hi, rfl, rfl⟩ | hx
    · cases ha
      rw [Storage.recordAt_getElement _ _ hk hlen hroom]
      rcases Nat.lt_succ_iff_lt_or_eq.mp hi with hi | rfl
      · rw [if_neg (Nat.ne_of_lt hi)]
        refine h.fetched _ _ (carried_cons.mpr (.inl ⟨hside, ?_⟩))
        exact ⟨claim, hclaim, i, hcopied ▸ hi, rfl, rfl⟩
      · rw [if_pos rfl]
        exact hstored
    · exact h.fetched p x (carried_cons.mpr (.inr hx))
  · rcases List.mem_cons.mp hd with rfl | hd
    · simp only [Storage.size_getElement]
      exact h.room c hc
    · exact h.room d (List.mem_cons_of_mem _ hd)

/-- Publishing moves the tail forward and copies nothing. -/
theorem publish (h : Faithful shape s (c :: rest)) (hcons : Consistent shape s (c :: rest))
    {claim : Claim} (hphase : c.phase = .publish claim ∨ c.phase = .moveTail claim)
    (htail : (s.cursors c.side).tail = claim.start) :
    Faithful shape (s.setCursors c.side ((s.cursors c.side).release claim))
      ({ c with phase := .done (some claim) } :: rest) := by
  have hclaim : c.claim? = some claim := by
    rcases hphase with hphase | hphase <;> rw [Call.claim?, hphase]
  have hcopied : c.copied = claim.len.toNat := by
    rcases hphase with hphase | hphase <;> rw [Call.copied, hphase]
  have hlt := (hcons.granted_bounds List.mem_cons_self hclaim).1
  refine h.replace rfl hclaim.symm hcopied.symm rfl rfl (RingState.storage_setCursors _ _ _) ?_
  cases hside : c.side with
  | producer => exact Nat.le_refl _
  | consumer =>
      rw [hside] at htail
      simp only [RingState.cursors] at htail
      rw [htail]
      exact hlt.le

/-- Every kind of progress keeps slots and buffers faithful. -/
theorem progress (h : Faithful shape s (c :: rest)) (hcons : Consistent shape s (c :: rest))
    (hp : c.Progress shape s s' c') : Faithful shape s' (c' :: rest) := by
  have hle := Nat.le_refl s.consumer.tail.toNat
  cases hp with
  | loadHead phase | retry phase | breakClaim phase | seeTail phase | breakPublication phase =>
      refine h.replace rfl ?_ ?_ rfl rfl rfl hle
      · rw [Call.claim?, Call.claim?, phase]
      · rw [Call.copied, Call.copied, phase]
  | @decide start phase =>
      refine h.replace rfl ?_ ?_ rfl rfl rfl hle
      all_goals
        rcases Call.decide_cases shape c start (s.cursors c.side.opposite).tail with
          heq | heq | ⟨claim, heq, -⟩
        all_goals simp only [Call.claim?, Call.copied, phase, heq]
  | grant phase head =>
      refine h.grant (by rw [Call.claim?, phase]) (RingState.storage_setCursors _ _ _) ?_
      cases c.side <;> rfl
  | copyIn phase more side => exact h.copyIn hcons phase more side
  | copyOut phase more side => exact h.copyOut hcons phase more side
  | @copied claim copied phase all =>
      have hclaim : c.claim? = some claim := by rw [Call.claim?, phase]
      have hcopied : c.copied = copied := by rw [Call.copied, phase]
      have hlen := hcons.copied_le List.mem_cons_self hclaim
      refine h.replace rfl hclaim.symm ?_ rfl rfl rfl hle
      show claim.len.toNat = c.copied
      omega
  | overrun phase tooLong =>
      exact absurd tooLong (hcons.not_overruns List.mem_cons_self (by rw [Call.held?, phase]))
  | @publish claim phase tail =>
      refine h.publish hcons phase ?_
      rcases phase with phase | phase
      · exact tail phase
      · have hsound := hcons.sound c List.mem_cons_self
        simpa only [Call.Sound, phase] using hsound
  | stay => exact h

end Faithful

/-! ### Runs -/

/-- The buffer of a transfer that the move may begin has room for all its elements. -/
def Move.Fits (shape : Shape) (m : Move) : Prop :=
  ∀ c ∈ m.call?, c.wanted.toNat * shape.elementSize ≤ c.buffer.size

instance (shape : Shape) (m : Move) : Decidable (m.Fits shape) := by
  unfold Move.Fits
  infer_instance

theorem Faithful.change {shape : Shape} {m : Move} {s s' : RingState} {calls calls' : List Call}
    (h : Faithful shape s calls) (hcons : Consistent shape s calls)
    (hstep : ∀ c ∈ calls, c.Progress shape s (c.step shape s).1 (c.step shape s).2)
    (hfits : m.Fits shape) (hc : System.Change shape m s calls s' calls') :
    Faithful shape s' calls' := by
  cases hc with
  | none => exact h
  | begin _ _ hm => exact h.begin (Move.phase_of_call? hm) (hfits _ hm)
  | step _ c rest => exact h.progress hcons (hstep c List.mem_cons_self)
  | spoil _ c rest => exact h.progress hcons (c.progress_spoil _ _)

theorem System.faithful_act {m : Move} {s : System} (hcons : Consistent s.shape s.state s.calls)
    (hstep : ∀ c ∈ s.calls,
      c.Progress s.shape s.state (c.step s.shape s.state).1 (c.step s.shape s.state).2)
    (hfits : m.Fits s.shape) (h : Faithful s.shape s.state s.calls) :
    Faithful (s.act m).shape (s.act m).state (s.act m).calls := by
  obtain ⟨hshape, before, after, hb, ha, hc⟩ := change_act m s
  rw [hshape]
  exact ((h.perm hb).change (hcons.perm hb) (fun c hc => hstep c (hb.mem_iff.mpr hc)) hfits
    hc).perm ha.symm

end BurstRing
