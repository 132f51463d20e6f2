import BurstRing.Proofs.Ring.Fifo
import BurstRing.Proofs.Ring.History

/-!
# Sides with one caller each

One caller drives the producers' side and another one the consumers', and both store their cursors
without a test.  What a test would find holds anyway (`Call.Alone`): between two transfers the
cursors of a side stand together, a transfer finds the head where it loaded it, and the range it
holds lies exactly between tail and head.  So the claims of the caller tile what its head has
passed (`Caller.Owns`), and each step is one of those that keep the order of the cursors and the
contents of the slots (`System.Parted`).
-/

namespace BurstRing

namespace Call

/-- The call finds the cursors of its side where it left them. -/
def Alone (k : Cursors) (c : Call) : Prop :=
  match c.phase with
  | .loadHead | .done _ => k.tail = k.head
  | .loadOpposing start => k.tail = k.head ∧ start = k.head
  | .exchange claim => k.tail = k.head ∧ claim.start = k.head
  | .copy claim _ | .publish claim => k.tail = claim.start ∧ k.head = claim.stop
  | .moveTail _ | .broken _ _ => False

variable {shape : Shape} {s s' : RingState} {c c' : Call}

/-- A call that finds the cursors so takes the steps that tests would allow. -/
theorem Alone.progress (h : c.Alone (s.cursors c.side)) :
    c.Progress shape s (c.step shape s).1 (c.step shape s).2 := by
  refine c.progress_step shape s (fun claim hphase _ => ?_) fun claim hphase _ => ?_
  · simp only [Alone, hphase] at h
    exact h.2.symm
  · simp only [Alone, hphase] at h
    exact h.1

theorem Alone.step (h : c.Alone (s.cursors c.side)) (howned : c.access = .owned)
    (hfits : ∀ claim, c.claim? = some claim → ¬ claim.Overruns shape.overflow) :
    (c.step shape s).2.Alone ((c.step shape s).1.cursors c.side) := by
  cases hphase : c.phase with
  | loadHead =>
      simp only [Alone, hphase] at h
      simp only [Call.step, hphase]
      exact ⟨h, rfl⟩
  | loadOpposing start =>
      simp only [Alone, hphase] at h
      obtain ⟨htail, rfl⟩ := h
      simp only [Call.step, hphase]
      rcases decide_cases shape c (s.cursors c.side).head (s.cursors c.side.opposite).tail with
        heq | heq | ⟨claim, heq, hstart, -⟩
      · simp only [Alone, heq]
        exact htail
      · simp only [Alone, heq]
        exact htail
      · simp only [Alone, heq]
        exact ⟨htail, hstart⟩
  | exchange claim =>
      simp only [Alone, hphase] at h
      simp only [Call.step, hphase, Call.reserve, howned, RingState.cursors_setCursors]
      exact ⟨h.1.trans h.2.symm, rfl⟩
  | copy claim copied =>
      simp only [Alone, hphase] at h
      have hlength := Claim.length_of_not_overruns (hfits claim (by rw [claim?, hphase]))
      simp only [Call.step, hphase, hlength]
      split
      · split <;> rename_i hside <;> rw [hside] at h ⊢ <;> exact h
      · exact h
  | publish claim =>
      simp only [Alone, hphase] at h
      simp only [Call.step, hphase, settle, howned, RingState.cursors_setCursors]
      exact h.2.symm
  | moveTail claim => simp only [Alone, hphase] at h
  | done claim => simpa only [Call.step, hphase] using h
  | broken panic claim => simp only [Alone, hphase] at h

namespace Progress

/-- A step leaves the cursors across where they are. -/
theorem cursors_of_ne (h : c.Progress shape s s' c') {side : Side} (hne : side ≠ c.side) :
    s'.cursors side = s.cursors side := by
  cases h with
  | grant => exact RingState.cursors_setCursors_of_ne _ _ hne
  | publish => exact RingState.cursors_setCursors_of_ne _ _ hne
  | copyIn => cases side <;> rfl
  | _ => rfl

end Progress

end Call

/-! ### The caller of a side -/

/-- The caller alone drives the side with these cursors.  All its works but the newest are done,
the newest finds the cursors where it left them, and its claims, the oldest first, tile what the
head has passed. -/
structure Caller.Owns (side : Side) (k : Cursors) (c : Caller) : Prop where
  owned : ∀ d ∈ c.calls, d.side = side ∧ d.access = .owned
  done : ∀ w ∈ c.works.tail, w.isDone = true
  newest : match c.works.head? with
    | some (.transfer d) => d.Alone k
    | _ => k.tail = k.head
  tile : Tile 0 (c.calls.reverse.filterMap Call.claim?) k.head.toNat

theorem Caller.calls_transfer (d : Call) (works : List Work) :
    Caller.calls ⟨.transfer d :: works⟩ = d :: Caller.calls ⟨works⟩ :=
  rfl

theorem Work.phase_of_isDone {d : Call} (h : (Work.transfer d).isDone = true) :
    ∃ claim, d.phase = .done claim := by
  simp only [Work.isDone] at h
  split at h
  · exact ⟨_, ‹_›⟩
  · cases h

namespace Caller.Owns

variable {shape : Shape} {side : Side} {s : RingState} {k : Cursors} {c : Caller}

theorem fresh (side : Side) : Caller.fresh.Owns side (.startingAt 0) where
  owned := nofun
  done := nofun
  newest := rfl
  tile := .nil 0

/-- An idle caller has left its cursors together. -/
theorem tail_eq_head (h : c.Owns side k) (hidle : c.isIdle = true) : k.tail = k.head := by
  have hnewest := h.newest
  obtain ⟨works⟩ := c
  rcases works with - | ⟨d | probe, works⟩
  · exact hnewest
  · obtain ⟨claim, hphase⟩ := Work.phase_of_isDone (d := d) (by simpa [Caller.isIdle] using hidle)
    simpa only [List.head?_cons, Call.Alone, hphase] using hnewest
  · exact hnewest

theorem start (h : c.Owns side k) {job : Job}
    (hjob : ∀ d ∈ job.call?, d.side = side ∧ d.access = .owned) : (c.start job).Owns side k := by
  unfold Caller.start
  split
  · rename_i hidle
    have htail := h.tail_eq_head hidle
    have hdone : ∀ w ∈ c.works, w.isDone = true := by
      intro w hw
      have hold := h.done w
      obtain ⟨works⟩ := c
      cases works with
      | nil => cases hw
      | cons newest works =>
          rcases List.mem_cons.mp hw with rfl | hw
          · simpa [Caller.isIdle] using hidle
          · exact hold hw
    cases job with
    | count => exact ⟨h.owned, hdone, htail, h.tile⟩
    | transfer side' behavior access wanted buffer =>
        refine ⟨fun d hd => ?_, hdone, htail, ?_⟩
        · rcases List.mem_cons.mp hd with rfl | hd
          · exact hjob _ rfl
          · exact h.owned d hd
        · rw [Job.begin, Caller.calls_transfer, List.reverse_cons, List.filterMap_append]
          exact (List.append_nil _).symm ▸ h.tile
  · exact h

/-- What the newest call does leaves the other calls done and the side to the caller. -/
theorem step (h : c.Owns side (s.cursors side))
    (hpos : ∀ d ∈ (c.step shape s).2.calls, ∀ claim, d.claim? = some claim →
      claim.start.toNat < claim.stop.toNat) :
    (c.step shape s).2.Owns side ((c.step shape s).1.cursors side) := by
  obtain ⟨works⟩ := c
  rcases works with - | ⟨d | probe, works⟩
  · exact h
  · obtain ⟨rfl, howned⟩ := h.owned d List.mem_cons_self
    have halone : d.Alone (s.cursors d.side) := h.newest
    have hp : d.Progress shape s (d.step shape s).1 (d.step shape s).2 := halone.progress
    have hfits : ∀ claim, d.claim? = some claim → ¬ claim.Overruns shape.overflow :=
      fun claim hclaim => Claim.not_overruns_of_le
        (hpos _ List.mem_cons_self claim (Call.claim?_step shape s hclaim)).le
    refine ⟨fun e he => ?_, h.done, halone.step howned hfits, ?_⟩
    · rcases List.mem_cons.mp he with rfl | he
      · exact ⟨Call.side_step _ _ _, (Call.access_step _ _ _).trans howned⟩
      · exact h.owned e (List.mem_cons_of_mem _ he)
    · have htile := h.tile
      have hstep : Caller.step shape s ⟨.transfer d :: works⟩ =
          ((d.step shape s).1, ⟨.transfer (d.step shape s).2 :: works⟩) := rfl
      rw [hstep] at hpos ⊢
      rw [Caller.calls_transfer, List.reverse_cons, List.filterMap_append] at htile ⊢
      rcases hp.claim?_cases with ⟨hclaim, hhead⟩ | ⟨hnone, claim, hclaim, hstart, hstop⟩
      · simp only [List.filterMap_cons, hclaim, hhead] at htile ⊢
        exact htile
      · rw [List.filterMap_cons_none hnone, List.filterMap_nil, List.append_nil] at htile
        rw [List.filterMap_cons_some hclaim, List.filterMap_nil, hstop]
        refine htile.snoc (by rw [hstart]) ?_
        rw [hstart]
        exact hpos _ List.mem_cons_self claim hclaim
  · exact ⟨h.owned, h.done, h.newest, h.tile⟩

/-- A call of the caller is done, or it finds the cursors where it left them. -/
theorem alone_or_done (h : c.Owns side k) {d : Call} (hd : d ∈ c.calls) :
    d.Alone k ∨ ∃ claim, d.phase = .done claim := by
  obtain ⟨work, hwork, hcall⟩ := List.mem_filterMap.mp hd
  have hnewest := h.newest
  have hdone := h.done
  obtain ⟨works⟩ := c
  cases work with
  | probe => cases hcall
  | transfer e =>
      cases hcall
      cases works with
      | nil => cases hwork
      | cons newest works =>
          rcases List.mem_cons.mp hwork with rfl | hwork
          · exact .inl hnewest
          · exact .inr (Work.phase_of_isDone (hdone _ hwork))

/-- Every call of the caller takes the steps that tests would allow. -/
theorem progress (h : c.Owns side (s.cursors side)) {d : Call} (hd : d ∈ c.calls) :
    d.Progress shape s (d.step shape s).1 (d.step shape s).2 := by
  rcases h.alone_or_done hd with halone | ⟨claim, hphase⟩
  · exact Call.Alone.progress ((h.owned d hd).1 ▸ halone)
  · have hstep : d.step shape s = (s, d) := by simp only [Call.step, hphase]
    rw [hstep]
    exact .stay

/-- A step of the caller leaves the cursors across where they are. -/
theorem cursors_of_ne (h : c.Owns side (s.cursors side)) {other : Side} (hne : other ≠ side) :
    (c.step shape s).1.cursors other = s.cursors other := by
  obtain ⟨works⟩ := c
  rcases works with - | ⟨d | probe, works⟩
  · rfl
  · obtain ⟨rfl, -⟩ := h.owned d List.mem_cons_self
    exact (h.progress List.mem_cons_self).cursors_of_ne hne
  · rfl

end Caller.Owns

/-! ### Both callers -/

/-- The number of the caller that drives a side. -/
def Side.caller : Side → Nat
  | .producer => 0
  | .consumer => 1

/-- The move is one of the caller of a side, and the transfer that it may begin is one on this
side, for its only caller, with a buffer that has room. -/
def Move.OfOwner (shape : Shape) : Move → Prop
  | .start i job => ∃ side : Side, i = side.caller ∧ ∀ d ∈ job.call?, d.side = side ∧
      d.access = .owned ∧ d.wanted.toNat * shape.elementSize ≤ d.buffer.size
  | .step i => ∃ side : Side, i = side.caller
  | .spoil _ => False

theorem Move.OfOwner.fits {shape : Shape} {m : Move} (h : m.OfOwner shape) : m.Fits shape := by
  cases m with
  | start i job =>
      obtain ⟨side, -, hjob⟩ := h
      exact fun d hd => (hjob d hd).2.2
  | step => nofun
  | spoil => nofun

namespace System

/-- Two callers share the ring, each of them alone on its side. -/
structure Parted (s : System) (owner : Side → Caller) : Prop where
  callers : s.callers = #[owner .producer, owner .consumer]
  owns : ∀ side, (owner side).Owns side (s.state.cursors side)
  consistent : Consistent s.shape s.state s.calls
  faithful : Faithful s.shape s.state s.calls

theorem mem_calls_iff {s : System} {owner : Side → Caller}
    (h : s.callers = #[owner .producer, owner .consumer]) {d : Call} :
    d ∈ s.calls ↔ ∃ side, d ∈ (owner side).calls := by
  rw [mem_calls, h]
  constructor
  · rintro ⟨caller, hcaller, hd⟩
    simp only [List.mem_toArray, List.mem_cons, List.not_mem_nil, or_false] at hcaller
    rcases hcaller with rfl | rfl
    · exact ⟨_, hd⟩
    · exact ⟨_, hd⟩
  · rintro ⟨side, hd⟩
    exact ⟨owner side, by cases side <;> simp, hd⟩

namespace Parted

variable {s : System} {owner : Side → Caller} {m : Move}

theorem create (shape : Shape) : (create shape 2).Parted fun _ => .fresh where
  callers := rfl
  owns side := by cases side <;> exact .fresh _
  consistent := (orderly_create shape 2).consistent
  faithful := (sound_create shape 2).faithful

theorem get_caller (h : s.Parted owner) (side : Side) :
    s.callers[side.caller]? = some (owner side) := by
  rw [h.callers]
  cases side <;> rfl

theorem progress (h : s.Parted owner) : ∀ d ∈ s.calls,
    d.Progress s.shape s.state (d.step s.shape s.state).1 (d.step s.shape s.state).2 := by
  intro d hd
  obtain ⟨side, hd⟩ := (mem_calls_iff h.callers).mp hd
  exact (h.owns side).progress hd

theorem horizon_le_act (h : s.Parted owner) (m : Move) (side : Side) :
    s.state.horizon s.shape side ≤ (s.act m).state.horizon s.shape side :=
  System.horizon_le_act h.consistent h.progress m side

/-- A move of the caller of one side changes that caller alone. -/
theorem act (h : s.Parted owner) (hm : m.OfOwner s.shape)
    (hbound : (s.act m).claimed .producer < 2 ^ 64) : ∃ owner', (s.act m).Parted owner' := by
  have hcons := consistent_act h.consistent h.progress hbound
  have hfaithful := faithful_act h.consistent h.progress hm.fits h.faithful
  have hset : ∀ (side : Side) (c : Caller), s.callers.setIfInBounds side.caller c =
      #[Function.update owner side c .producer, Function.update owner side c .consumer] := by
    intro side c
    rw [h.callers]
    cases side <;> rfl
  cases m with
  | start i job =>
      obtain ⟨side, rfl, hjob⟩ := hm
      refine ⟨Function.update owner side ((owner side).start job), ?_, fun other => ?_, hcons,
        hfaithful⟩
      · exact (modify_eq_set (h.get_caller side) _).trans (hset _ _)
      · show (Function.update owner side _ other).Owns other (s.state.cursors other)
        by_cases hother : other = side
        · subst hother
          rw [Function.update_self]
          exact (h.owns other).start fun d hd => ⟨(hjob d hd).1, (hjob d hd).2.1⟩
        · rw [Function.update_of_ne hother]
          exact h.owns other
  | step i =>
      obtain ⟨side, rfl⟩ := hm
      have hact : s.act (.step side.caller) = ⟨s.shape, ((owner side).step s.shape s.state).1,
          s.callers.setIfInBounds side.caller ((owner side).step s.shape s.state).2⟩ := by
        simp only [System.act, h.get_caller side]
      rw [hact] at hcons hfaithful ⊢
      refine ⟨Function.update owner side ((owner side).step s.shape s.state).2, hset _ _,
        fun other => ?_, hcons, hfaithful⟩
      show (Function.update owner side _ other).Owns other
        (((owner side).step s.shape s.state).1.cursors other)
      by_cases hother : other = side
      · subst hother
        rw [Function.update_self]
        refine (h.owns other).step fun d hd claim hclaim => ?_
        exact (hcons.granted_bounds ((mem_calls_iff (hset _ _)).mpr ⟨other, by
          rwa [Function.update_self]⟩) hclaim).1
      · rw [Function.update_of_ne hother, (h.owns side).cursors_of_ne hother]
        exact h.owns other
  | spoil => exact hm.elim

theorem run {schedule : List Move} (h : s.Parted owner) (hm : ∀ m ∈ schedule, m.OfOwner s.shape)
    (hbound : (s.run schedule).claimed .producer < 2 ^ 64) :
    ∃ owner', (s.run schedule).Parted owner' := by
  have hact : ∀ (m : Move) (t : System), m.OfOwner s.shape →
      (t.act m).claimed .producer < 2 ^ 64 → t.shape = s.shape ∧ (∃ owner', t.Parted owner') →
      (t.act m).shape = s.shape ∧ ∃ owner', (t.act m).Parted owner' := by
    rintro m t hm hb ⟨hshape, owner', ht⟩
    exact ⟨(change_act m t).1.trans hshape, ht.act (hshape ▸ hm) hb⟩
  exact (run_invariant hact hm hbound ⟨rfl, owner, h⟩).2

end Parted

end System

end BurstRing
