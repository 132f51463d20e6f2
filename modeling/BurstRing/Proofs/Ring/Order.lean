import BurstRing.Proofs.Ring.Change

/-!
# The order of the cursors

At any moment of any run the claims published on a side tile what lies before its tail, and the
claims held on it tile what lies between its tail and its head (`Cursors.Tiled`).  No head passes
its horizon: a producer's stays within a capacity of the consumers' tail, and a consumer's does not
pass the producers' tail.  With what each unfinished call knows of its cursors (`Call.Sound`) this
makes an invariant (`Consistent`).

A call may have read cursors that have moved on since.  What saves it is that an exchange succeeds
only where the head still is what the call loaded; then the reading it took was exact, and the
horizon has only moved forward since.

Two consequences are drawn at once: the four cursors are ordered, and no slot belongs to two claims
that are held, whoever holds them (`Consistent.held_slots_ne`).
-/

namespace BurstRing

/-- The published claims tile what lies before the tail, and the held ones what lies between the
tail and the head. -/
def Cursors.Tiled (k : Cursors) (published held : List Claim) : Prop :=
  ∃ before after, before.Perm published ∧ after.Perm held ∧
    Tile 0 before k.tail.toNat ∧ Tile k.tail.toNat after k.head.toNat

/-- What an unfinished call knows of the cursors. -/
def Call.Sound (shape : Shape) (s : RingState) (c : Call) : Prop :=
  match c.phase with
  | .loadOpposing start => start.toNat ≤ (s.cursors c.side).head.toNat
  | .exchange claim =>
    claim.start.toNat ≤ (s.cursors c.side).head.toNat ∧ 0 < claim.len.toNat ∧
      claim.len.toNat ≤ c.wanted.toNat ∧
      (claim.start.toNat = (s.cursors c.side).head.toNat →
        claim.start.toNat + claim.len.toNat ≤ s.horizon shape c.side)
  | .copy claim copied => copied ≤ claim.len.toNat ∧ claim.len.toNat ≤ c.wanted.toNat
  | .moveTail claim => (s.cursors c.side).tail = claim.start
  | _ => True

/-- The invariant of all calls on one ring. -/
structure Consistent (shape : Shape) (s : RingState) (calls : List Call) : Prop where
  tiled : ∀ side, (s.cursors side).Tiled (claimsOn side Call.published? calls)
    (claimsOn side Call.held? calls)
  head_le : ∀ side, (s.cursors side).head.toNat ≤ s.horizon shape side
  sound : ∀ c ∈ calls, c.Sound shape s

namespace Cursors.Tiled

variable {k : Cursors} {published held : List Claim} {claim : Claim}

theorem tail_le_head (h : k.Tiled published held) : k.tail.toNat ≤ k.head.toNat := by
  obtain ⟨before, after, -, -, -, t⟩ := h
  exact t.le

theorem held_bounds (h : k.Tiled published held) (hc : claim ∈ held) :
    k.tail.toNat ≤ claim.start.toNat ∧ claim.start.toNat < claim.stop.toNat ∧
      claim.stop.toNat ≤ k.head.toNat := by
  obtain ⟨before, after, -, ha, -, t⟩ := h
  exact t.bounds (ha.mem_iff.mpr hc)

theorem published_bounds (h : k.Tiled published held) (hc : claim ∈ published) :
    claim.start.toNat < claim.stop.toNat ∧ claim.stop.toNat ≤ k.tail.toNat := by
  obtain ⟨before, after, hb, -, t, -⟩ := h
  exact (t.bounds (hb.mem_iff.mpr hc)).2

theorem held_apart (h : k.Tiled published held) : held.Pairwise Claim.Apart := by
  obtain ⟨before, after, -, ha, -, t⟩ := h
  exact ha.pairwise t.apart fun h => h.symm

theorem held_covers (h : k.Tiled published held) (p : Nat) :
    (∃ c ∈ held, c.Covers p) ↔ k.tail.toNat ≤ p ∧ p < k.head.toNat := by
  obtain ⟨before, after, -, ha, -, t⟩ := h
  simpa only [ha.mem_iff] using t.covers_iff p

theorem published_covers (h : k.Tiled published held) (p : Nat) :
    (∃ c ∈ published, c.Covers p) ↔ p < k.tail.toNat := by
  obtain ⟨before, after, hb, -, t, -⟩ := h
  simpa [hb.mem_iff] using t.covers_iff p

theorem all_apart (h : k.Tiled published held) :
    (published ++ held).Pairwise Claim.Apart := by
  obtain ⟨before, after, hb, ha, t, t'⟩ := h
  exact (hb.append ha).pairwise (t.append t').apart fun h => h.symm

theorem sum_len (h : k.Tiled published held) :
    ((published ++ held).map fun c => c.len.toNat).sum = k.head.toNat := by
  obtain ⟨before, after, hb, ha, t, t'⟩ := h
  rw [← ((hb.append ha).map _).sum_eq, ← (t.append t').sum_len, Nat.zero_add]

/-- A granted claim is held. -/
theorem reserve (h : k.Tiled published held) (hs : k.head = claim.start)
    (hlt : claim.start.toNat < claim.stop.toNat) :
    (k.reserve claim).Tiled published (claim :: held) := by
  obtain ⟨before, after, hb, ha, t, t'⟩ := h
  refine ⟨before, after ++ [claim], hb, (List.perm_append_singleton _ _).trans (ha.cons _), t, ?_⟩
  exact t'.snoc (by rw [hs]) (by rw [hs]; exact hlt)

/-- Only the claim at the tail can be published, and then it is no longer held. -/
theorem release (h : k.Tiled published (claim :: held)) (hs : k.tail = claim.start) :
    (k.release claim).Tiled (claim :: published) held ∧ k.tail.toNat < claim.stop.toNat ∧
      ∀ c ∈ held, claim.stop.toNat ≤ c.start.toNat := by
  obtain ⟨before, after, hb, ha, t, t'⟩ := h
  obtain ⟨after', rfl, hlt, t''⟩ :=
    t'.eq_cons_of_mem (ha.mem_iff.mpr List.mem_cons_self) (by rw [hs])
  have ha' : after'.Perm held := ha.cons_inv
  refine ⟨⟨before ++ [claim], after', ?_, ha', t.snoc (by rw [hs]) hlt, t''⟩, hlt, fun c hc => ?_⟩
  · exact (List.perm_append_singleton _ _).trans (hb.cons _)
  · exact (t''.bounds (ha'.mem_iff.mpr hc)).1

end Cursors.Tiled

theorem Call.Sound.mono {shape : Shape} {s s' : RingState} {c : Call} (h : c.Sound shape s)
    (hhead : ∀ side, (s.cursors side).head.toNat ≤ (s'.cursors side).head.toNat)
    (hhorizon : ∀ side, s.horizon shape side ≤ s'.horizon shape side)
    (htail : ∀ claim, c.phase = .moveTail claim → (s'.cursors c.side).tail = claim.start) :
    c.Sound shape s' := by
  have hh := hhead c.side
  have hz := hhorizon c.side
  unfold Sound at h ⊢
  cases hphase : c.phase with
  | loadOpposing start => simp only [hphase] at h ⊢; omega
  | exchange claim =>
      simp only [hphase] at h ⊢
      obtain ⟨h₁, h₂, h₃, h₄⟩ := h
      exact ⟨by omega, h₂, h₃, fun he => (h₄ (by omega)).trans hz⟩
  | copy claim copied => simpa only [hphase] using h
  | moveTail claim => exact htail claim hphase
  | loadHead => trivial
  | publish => trivial
  | done => trivial
  | broken => trivial

namespace Consistent

variable {shape : Shape} {s s' : RingState} {calls calls' rest : List Call} {c c' : Call}

theorem initial (shape : Shape) : Consistent shape (.startingAt 0) [] where
  tiled side := ⟨[], [], .refl _, .refl _, by cases side <;> exact .nil 0,
    by cases side <;> exact .nil 0⟩
  head_le side := by cases side <;> exact Nat.zero_le _
  sound := nofun

theorem perm (hp : calls.Perm calls') (h : Consistent shape s calls) :
    Consistent shape s calls' where
  tiled side := by
    obtain ⟨before, after, hb, ha, t, t'⟩ := h.tiled side
    exact ⟨before, after, hb.trans (claimsOn_perm hp), ha.trans (claimsOn_perm hp), t, t'⟩
  head_le := h.head_le
  sound c hc := h.sound c (hp.mem_iff.mpr hc)

theorem consumer_tail_le (h : Consistent shape s calls) (side : Side) :
    s.consumer.tail.toNat ≤ (s.cursors side).head.toNat := by
  have h₁ : s.consumer.tail.toNat ≤ s.consumer.head.toNat := (h.tiled .consumer).tail_le_head
  have h₂ : s.consumer.head.toNat ≤ s.producer.tail.toNat := h.head_le .consumer
  have h₃ : s.producer.tail.toNat ≤ s.producer.head.toNat := (h.tiled .producer).tail_le_head
  cases side with
  | producer => exact h₁.trans (h₂.trans h₃)
  | consumer => exact h₁

theorem tail_le_tail (h : Consistent shape s calls) :
    s.consumer.tail.toNat ≤ s.producer.tail.toNat :=
  (h.consumer_tail_le .consumer).trans (h.head_le .consumer)

/-- The head counts the elements claimed on its side. -/
theorem claimedOn_eq (h : Consistent shape s calls) (side : Side) :
    claimedOn side calls = (s.cursors side).head.toNat := by
  rw [claimedOn, ((claimsOn_claim?_perm side calls).map _).sum_eq]
  exact (h.tiled side).sum_len

/-! ### What a step keeps -/

/-- A call that keeps its claim may change in any sound way. -/
theorem replace (h : Consistent shape s (c :: rest)) (hside : c'.side = c.side)
    (hheld : c'.held? = c.held?) (hpublished : c'.published? = c.published?)
    (hsound : c'.Sound shape s) : Consistent shape s (c' :: rest) where
  tiled side := by
    have h' := h.tiled side
    simpa only [claimsOn, List.filterMap_cons, hside, hheld, hpublished] using h'
  head_le := h.head_le
  sound d hd := by
    rcases List.mem_cons.mp hd with rfl | hd
    · exact hsound
    · exact h.sound d (List.mem_cons_of_mem _ hd)

theorem begin (h : Consistent shape s calls) (hphase : c.phase = .loadHead) :
    Consistent shape s (c :: calls) where
  tiled side := by
    rw [claimsOn_cons_none (by rw [Call.published?, hphase]),
      claimsOn_cons_none (by rw [Call.held?, hphase])]
    exact h.tiled side
  head_le := h.head_le
  sound d hd := by
    rcases List.mem_cons.mp hd with rfl | hd
    · simp only [Call.Sound, hphase]
    · exact h.sound d hd

/-- Nothing here depends on what the slots hold. -/
theorem storage (h : Consistent shape s calls) (storage : Storage) :
    Consistent shape { s with storage } calls where
  tiled
    | .producer => h.tiled .producer
    | .consumer => h.tiled .consumer
  head_le
    | .producer => h.head_le .producer
    | .consumer => h.head_le .consumer
  sound c hc := by
    refine (h.sound c hc).mono (fun side => ?_) (fun side => ?_) fun claim hphase => ?_
    · cases side <;> exact Nat.le_refl _
    · cases side <;> exact Nat.le_refl _
    · have hs := h.sound c hc
      simp only [Call.Sound, hphase] at hs
      rw [← hs]
      cases c.side <;> rfl

/-- A reading of the tail across gives a range that fits while the head stays. -/
theorem sound_decide (h : Consistent shape s (c :: rest)) {start : UInt64}
    (hphase : c.phase = .loadOpposing start) :
    ({ c with phase := c.decide shape start (s.cursors c.side.opposite).tail } : Call).Sound
      shape s := by
  have hs := h.sound c List.mem_cons_self
  simp only [Call.Sound, hphase] at hs
  rcases Call.decide_cases shape c start (s.cursors c.side.opposite).tail with
    heq | heq | ⟨claim, heq, rfl, hlen, hpos⟩
  · simp only [Call.Sound, heq]
  · simp only [Call.Sound, heq]
  · simp only [Call.Sound, heq]
    have hle := take_le_available c.wanted c.behavior
      (Call.available shape c.side claim.start (s.cursors c.side.opposite).tail)
    have hwanted := take_le_wanted c.wanted c.behavior
      (Call.available shape c.side claim.start (s.cursors c.side.opposite).tail)
    rw [← hlen] at hle hwanted
    -- The reading tells of the present only if the head still is what was loaded.
    refine ⟨hs, hpos, hwanted, fun he => ?_⟩
    have htail := h.consumer_tail_le c.side
    have hhead := h.head_le c.side
    rw [Call.toNat_available (by omega) (by omega)] at hle
    omega

/-- A granted range stays within the horizon and does not run over `2 ^ 64`. -/
theorem grant_bounds (h : Consistent shape s (c :: rest)) {claim : Claim}
    (hphase : c.phase = .exchange claim) (hs : (s.cursors c.side).head = claim.start)
    (hbound : claimedOn .producer ({ c with phase := .copy claim 0 } :: rest) < 2 ^ 64) :
    claim.start.toNat < claim.stop.toNat ∧ claim.stop.toNat ≤ s.horizon shape c.side ∧
      claim.len.toNat ≤ c.wanted.toNat := by
  have hsound := h.sound c List.mem_cons_self
  simp only [Call.Sound, hphase] at hsound
  obtain ⟨-, hpos, hwanted, hfit⟩ := hsound
  have hle := hfit (by rw [hs])
  -- A producer's range counts as claimed, and a consumer's ends before the producers' tail.
  have hlt : claim.start.toNat + claim.len.toNat < 2 ^ 64 := by
    cases hside : c.side with
    | producer =>
        have hnone : c.claim? = none := by rw [Call.claim?, hphase]
        have hhead := h.claimedOn_eq .producer
        have hnew : claimsOn .producer Call.claim? ({ c with phase := .copy claim 0 } :: rest) =
            claim :: claimsOn .producer Call.claim? rest :=
          claimsOn_cons_some hside rfl
        rw [claimedOn, claimsOn_cons_none hnone, ← hside, hs] at hhead
        rw [claimedOn, hnew, List.map_cons, List.sum_cons, ← hside, hhead] at hbound
        omega
    | consumer =>
        rw [hside] at hle
        exact Nat.lt_of_le_of_lt hle s.producer.tail.toNat_lt
  rw [Claim.toNat_stop hlt]
  exact ⟨by omega, hle, hwanted⟩

theorem grant (h : Consistent shape s (c :: rest)) {claim : Claim}
    (hphase : c.phase = .exchange claim) (hs : (s.cursors c.side).head = claim.start)
    (hbound : claimedOn .producer ({ c with phase := .copy claim 0 } :: rest) < 2 ^ 64) :
    Consistent shape (s.setCursors c.side ((s.cursors c.side).reserve claim))
      ({ c with phase := .copy claim 0 } :: rest) := by
  obtain ⟨hlt, hle, hwanted⟩ := h.grant_bounds hphase hs hbound
  -- Horizons are made of tails, and no tail moves.
  have hhorizon : ∀ side, (s.setCursors c.side ((s.cursors c.side).reserve claim)).horizon shape
      side = s.horizon shape side := by
    intro side
    cases c.side <;> cases side <;> rfl
  have hhead : ∀ side, (s.cursors side).head.toNat ≤
      ((s.setCursors c.side ((s.cursors c.side).reserve claim)).cursors side).head.toNat := by
    intro side
    by_cases hside : side = c.side
    · subst hside
      rw [RingState.cursors_setCursors, Cursors.reserve, hs]
      exact hlt.le
    · rw [RingState.cursors_setCursors_of_ne _ _ hside]
  refine ⟨fun side => ?_, fun side => ?_, fun d hd => ?_⟩
  · by_cases hside : side = c.side
    · subst hside
      have h' := h.tiled c.side
      rw [claimsOn_cons_none (by rw [Call.published?, hphase]),
        claimsOn_cons_none (by rw [Call.held?, hphase])] at h'
      have hnew : claimsOn c.side Call.held? ({ c with phase := .copy claim 0 } :: rest) =
          claim :: claimsOn c.side Call.held? rest :=
        claimsOn_cons_some rfl rfl
      rw [RingState.cursors_setCursors, claimsOn_cons_none rfl, hnew]
      exact h'.reserve hs hlt
    · have hsame : ∀ pick, claimsOn side pick ({ c with phase := .copy claim 0 } :: rest) =
          claimsOn side pick (c :: rest) := fun pick => claimsOn_replace (Ne.symm hside) rfl
      rw [RingState.cursors_setCursors_of_ne _ _ hside, hsame, hsame]
      exact h.tiled side
  · rw [hhorizon]
    by_cases hside : side = c.side
    · subst hside
      rw [RingState.cursors_setCursors]
      exact hle
    · rw [RingState.cursors_setCursors_of_ne _ _ hside]
      exact h.head_le side
  · rcases List.mem_cons.mp hd with rfl | hd
    · exact ⟨Nat.zero_le _, hwanted⟩
    · have hsound := h.sound d (List.mem_cons_of_mem _ hd)
      refine hsound.mono hhead (fun side => (hhorizon side).ge) fun claim' hphase' => ?_
      simp only [Call.Sound, hphase'] at hsound
      rw [← hsound]
      cases c.side <;> cases d.side <;> rfl

theorem publish (h : Consistent shape s (c :: rest)) {claim : Claim}
    (hheld : c.held? = some claim) (hs : (s.cursors c.side).tail = claim.start) :
    Consistent shape (s.setCursors c.side ((s.cursors c.side).release claim))
      ({ c with phase := .done (some claim) } :: rest) := by
  have hnone : c.published? = none := by
    rcases c.claim?_cases with ⟨-, h'⟩ | ⟨h', -⟩
    · exact h'
    · rw [hheld] at h'
      cases h'
  have htiled := h.tiled c.side
  rw [claimsOn_cons_none hnone, claimsOn_cons_some rfl hheld] at htiled
  obtain ⟨htiled', hlt, hafter⟩ := htiled.release hs
  have hhead : ∀ side, ((s.setCursors c.side ((s.cursors c.side).release claim)).cursors
      side).head = (s.cursors side).head := by
    intro side
    cases c.side <;> cases side <;> rfl
  -- The tail that moves is the horizon across, which comes to lie further ahead.
  have hhorizon : ∀ side, s.horizon shape side ≤
      (s.setCursors c.side ((s.cursors c.side).release claim)).horizon shape side := by
    intro side
    cases hside : c.side <;> rw [hside] at hlt <;> cases side
    · exact Nat.le_refl _
    · exact hlt.le
    · exact Nat.add_le_add_right hlt.le _
    · exact Nat.le_refl _
  refine ⟨fun side => ?_, fun side => ?_, fun d hd => ?_⟩
  · by_cases hside : side = c.side
    · subst hside
      have hnew : claimsOn c.side Call.published? ({ c with phase := .done (some claim) } :: rest) =
          claim :: claimsOn c.side Call.published? rest :=
        claimsOn_cons_some rfl rfl
      rw [RingState.cursors_setCursors, hnew, claimsOn_cons_none rfl]
      exact htiled'
    · have hsame : ∀ pick, claimsOn side pick ({ c with phase := .done (some claim) } :: rest) =
          claimsOn side pick (c :: rest) := fun pick => claimsOn_replace (Ne.symm hside) rfl
      rw [RingState.cursors_setCursors_of_ne _ _ hside, hsame, hsame]
      exact h.tiled side
  · rw [hhead]
    exact (h.head_le side).trans (hhorizon side)
  · rcases List.mem_cons.mp hd with rfl | hd
    · trivial
    · have hsound := h.sound d (List.mem_cons_of_mem _ hd)
      refine hsound.mono (fun side => by rw [hhead]) hhorizon fun claim' hphase' => ?_
      simp only [Call.Sound, hphase'] at hsound
      by_cases hside : d.side = c.side
      -- Two calls cannot both stand at the tail.
      · have hmem : claim' ∈ claimsOn c.side Call.held? rest :=
          mem_claimsOn.mpr ⟨d, hd, hside, by rw [Call.held?, hphase']⟩
        have hlast := hafter claim' hmem
        rw [← hsound, hside] at hlast
        omega
      · rw [RingState.cursors_setCursors_of_ne _ _ hside, hsound]

/-- Every kind of progress keeps the invariant. -/
theorem progress (h : Consistent shape s (c :: rest)) (hp : c.Progress shape s s' c')
    (hbound : claimedOn .producer (c' :: rest) < 2 ^ 64) : Consistent shape s' (c' :: rest) := by
  have hsound := h.sound c List.mem_cons_self
  cases hp with
  | loadHead phase =>
      refine h.replace rfl ?_ ?_ (Nat.le_refl _)
      · rw [Call.held?, Call.held?, phase]
      · rw [Call.published?, Call.published?, phase]
  | @decide start phase =>
      refine h.replace rfl ?_ ?_ (h.sound_decide phase)
      all_goals
        rcases Call.decide_cases shape c start (s.cursors c.side.opposite).tail with
          heq | heq | ⟨claim, heq, -⟩
        all_goals simp only [Call.held?, Call.published?, phase, heq]
  | grant phase head => exact h.grant phase head hbound
  | retry phase | breakClaim phase | copied phase | overrun phase | breakPublication phase =>
      refine h.replace rfl ?_ ?_ trivial
      · rw [Call.held?, Call.held?, phase]
      · rw [Call.published?, Call.published?, phase]
  | @copyIn claim copied phase more side =>
      simp only [Call.Sound, phase] at hsound
      refine Consistent.storage (?_ : Consistent shape s
        ({ c with phase := .copy claim (copied + 1) } :: rest)) _
      refine h.replace rfl ?_ ?_ ⟨more, hsound.2⟩
      · rw [Call.held?, Call.held?, phase]
      · rw [Call.published?, Call.published?, phase]
  | copyOut phase more side =>
      simp only [Call.Sound, phase] at hsound
      refine h.replace rfl ?_ ?_ ⟨more, hsound.2⟩
      · rw [Call.held?, Call.held?, phase]
      · rw [Call.published?, Call.published?, phase]
  | publish phase tail =>
      rcases phase with phase | phase
      · exact h.publish (by rw [Call.held?, phase]) (tail phase)
      · simp only [Call.Sound, phase] at hsound
        exact h.publish (by rw [Call.held?, phase]) hsound
  | seeTail phase tail =>
      refine h.replace rfl ?_ ?_ tail
      · rw [Call.held?, Call.held?, phase]
      · rw [Call.published?, Call.published?, phase]
  | stay => exact h

/-! ### What the invariant says of slots -/

/-- Positions of claims held on either side lie within one capacity of the consumers' tail. -/
theorem held_window (h : Consistent shape s calls) {claim : Claim} {p : Nat} (hc : c ∈ calls)
    (hheld : c.held? = some claim) (hp : claim.Covers p) :
    s.consumer.tail.toNat ≤ p ∧ p < s.consumer.tail.toNat + shape.capacity := by
  obtain ⟨hp₁, hp₂⟩ := hp
  have hbounds := (h.tiled c.side).held_bounds (mem_claimsOn.mpr ⟨c, hc, rfl, hheld⟩)
  have hct : s.consumer.tail.toNat ≤ s.consumer.head.toNat := (h.tiled .consumer).tail_le_head
  have hch : s.consumer.head.toNat ≤ s.producer.tail.toNat := h.head_le .consumer
  have hpt : s.producer.tail.toNat ≤ s.producer.head.toNat := (h.tiled .producer).tail_le_head
  have hph : s.producer.head.toNat ≤ s.consumer.tail.toNat + shape.capacity :=
    h.head_le .producer
  cases hside : c.side <;> rw [hside] at hbounds <;> simp only [RingState.cursors] at hbounds
  · omega
  · omega

/-- A held claim starts before it stops, so its length is no matter of the build. -/
theorem not_overruns (h : Consistent shape s calls) {claim : Claim} (hc : c ∈ calls)
    (hheld : c.held? = some claim) : ¬ claim.Overruns shape.overflow :=
  Claim.not_overruns_of_le
    ((h.tiled c.side).held_bounds (mem_claimsOn.mpr ⟨c, hc, rfl, hheld⟩)).2.1.le

theorem held_len_le (h : Consistent shape s calls) {claim : Claim} (hc : c ∈ calls)
    (hheld : c.held? = some claim) : claim.len.toNat ≤ shape.capacity := by
  have hlt := ((h.tiled c.side).held_bounds (mem_claimsOn.mpr ⟨c, hc, rfl, hheld⟩)).2.1
  have hfirst := h.held_window hc hheld ⟨Nat.le_refl _, hlt⟩
  have hlast := h.held_window hc hheld (p := claim.stop.toNat - 1) ⟨by omega, by omega⟩
  rw [Claim.toNat_len hlt.le]
  omega

/-- Claims held by two calls are apart, on one side or on both. -/
theorem held_apart (h : Consistent shape s calls) :
    (calls.filterMap Call.held?).Pairwise Claim.Apart := by
  have hside : ∀ side, calls.Pairwise fun c d => ∀ a b, c.side = side → d.side = side →
      c.held? = some a → d.held? = some b → a.Apart b := by
    intro side
    refine (List.pairwise_filterMap.mp (h.tiled side).held_apart).imp fun hcd a b hc hd ha hb => ?_
    exact hcd a (by rw [if_pos hc, ha]) b (by rw [if_pos hd, hb])
  -- What a consumer holds ends where what a producer holds begins, or before.
  have hacross : ∀ c ∈ calls, ∀ d ∈ calls, ∀ a b, c.side = .consumer → d.side = .producer →
      c.held? = some a → d.held? = some b → a.Apart b := by
    intro c hc d hd a b hcs hds ha hb
    have ha' := (h.tiled .consumer).held_bounds (mem_claimsOn.mpr ⟨c, hc, hcs, ha⟩)
    have hb' := (h.tiled .producer).held_bounds (mem_claimsOn.mpr ⟨d, hd, hds, hb⟩)
    exact Claim.apart_of_le (ha'.2.2.trans ((h.head_le .consumer).trans hb'.1))
  refine List.pairwise_filterMap.mpr ?_
  refine ((hside .producer).and (hside .consumer)).imp_of_mem fun {c d} hc hd hcd a ha b hb => ?_
  cases hcs : c.side <;> cases hds : d.side
  · exact hcd.1 a b hcs hds ha hb
  · exact (hacross d hd c hc b a hds hcs hb ha).symm
  · exact hacross c hc d hd a b hcs hds ha hb
  · exact hcd.2 a b hcs hds ha hb

/-- No slot belongs to two held claims. -/
theorem held_slots_ne (h : Consistent shape s calls) :
    (calls.filterMap Call.held?).Pairwise fun a b => ∀ p q, a.Covers p → b.Covers q →
      p % shape.capacity ≠ q % shape.capacity := by
  refine h.held_apart.imp_of_mem fun {a b} ha hb hab p q hp hq heq => ?_
  obtain ⟨c, hc, hca⟩ := List.mem_filterMap.mp ha
  obtain ⟨d, hd, hdb⟩ := List.mem_filterMap.mp hb
  have hp' := h.held_window hc hca hp
  have hq' := h.held_window hd hdb hq
  have hpq := Shape.eq_of_mod_eq hp'.1 hp'.2 hq'.1 hq'.2 heq
  exact hab p hp (hpq ▸ hq)

end Consistent

/-- No step takes back what a side may claim. -/
theorem Call.Progress.horizon_le {shape : Shape} {s s' : RingState} {c c' : Call}
    {rest : List Call} (h : c.Progress shape s s' c')
    (hcons : Consistent shape s (c :: rest)) (side : Side) :
    s.horizon shape side ≤ s'.horizon shape side := by
  cases h with
  | grant => cases c.side <;> cases side <;> exact Nat.le_refl _
  | copyIn => cases side <;> exact Nat.le_refl _
  | @publish claim phase tail =>
      have hclaim : c.held? = some claim := by
        rcases phase with phase | phase <;> rw [Call.held?, phase]
      have hlt := (hcons.tiled c.side).held_bounds
        (mem_claimsOn.mpr ⟨c, List.mem_cons_self, rfl, hclaim⟩)
      cases hside : c.side <;> rw [hside] at hlt <;>
        simp only [RingState.cursors] at hlt <;> cases side
      · exact Nat.le_refl _
      · exact (hlt.1.trans hlt.2.1.le)
      · exact Nat.add_le_add_right (hlt.1.trans hlt.2.1.le) _
      · exact Nat.le_refl _
  | _ => exact Nat.le_refl _

end BurstRing
