import BurstRing.Proofs.Ring.Alone
import BurstRing.Proofs.Ring.Endpoints

/-!
# What an endpoint has read it can have

An endpoint that counts reads how much its side can claim: the producer the free slots, the
consumer the elements.  The two tails are loaded one after the other, but one of them belongs to the
endpoint itself and stands still, and the other one only moves forward.  So a reading never says
more than can be claimed, and it stays so until the endpoint makes a transfer (`Caller.Promised`),
whatever the other endpoint does.

A transfer for no more than was read is therefore one for no more than can be claimed.  It gets all
that it was asked for, whether it was to move all or as many as there are, and it does so within its
own steps (`System.reading_reserves`).
-/

namespace BurstRing

/-! ### Readings -/

/-- What a count says to the endpoint of a side: free slots, or elements. -/
def Side.reading (shape : Shape) : Side → (count : Nat) → Nat
  | .producer, count => shape.capacity - count
  | .consumer, count => count

/-- What the works count that come before the first transfer. -/
def readingsOf : List Work → List Nat
  | .probe (.done n) :: works => n :: readingsOf works
  | .probe _ :: works => readingsOf works
  | _ => []

/-- What the caller has counted since it last began a transfer. -/
def Caller.readings (c : Caller) : List Nat := readingsOf c.works

theorem Consistent.reading_le {shape : Shape} {s : RingState} {calls : List Call}
    (h : Consistent shape s calls) {side : Side} {first : UInt64}
    (hrest : (s.cursors side).tail = (s.cursors side).head)
    (hle : first.toNat ≤ s.consumer.tail.toNat)
    (hown : side = .consumer → first = s.consumer.tail) :
    side.reading shape (RingState.count shape first s.producer.tail) ≤ s.claimable shape side := by
  have htails := h.tail_le_tail
  rw [RingState.count, UInt64.toNat_sub_of_le _ _ (UInt64.le_iff_toNat_le.mpr (hle.trans htails)),
    h.claimable_eq]
  cases side with
  | producer =>
      simp only [RingState.cursors] at hrest
      simp only [Side.reading, RingState.horizon, RingState.cursors, ← hrest]
      omega
  | consumer =>
      simp only [RingState.cursors] at hrest
      simp only [Side.reading, RingState.horizon, RingState.cursors, ← hrest, hown rfl]
      omega

/-- What the caller has read since its last transfer it can claim; and a count under way has loaded
a tail that can only have moved forward since, and not at all if it is the caller's own. -/
structure Caller.Promised (shape : Shape) (side : Side) (s : RingState) (c : Caller) : Prop where
  kept : ∀ n ∈ c.readings, side.reading shape n ≤ s.claimable shape side
  loaded : ∀ first, c.works.head? = some (.probe (.loadProducerTail first)) →
    first.toNat ≤ s.consumer.tail.toNat ∧ (side = .consumer → first = s.consumer.tail)

namespace Caller.Promised

variable {shape : Shape} {side : Side} {s s' : RingState} {c : Caller}

theorem fresh (shape : Shape) (side : Side) (s : RingState) :
    Caller.fresh.Promised shape side s where
  kept := nofun
  loaded := nofun

/-- Nothing is promised to a caller that has begun a transfer. -/
theorem transfer (d : Call) (works : List Work) :
    Promised shape side s ⟨.transfer d :: works⟩ where
  kept := nofun
  loaded := nofun

theorem mono (h : c.Promised shape side s)
    (hclaimable : s.claimable shape side ≤ s'.claimable shape side)
    (htail : s.consumer.tail.toNat ≤ s'.consumer.tail.toNat)
    (hown : side = .consumer → s'.consumer.tail = s.consumer.tail) :
    c.Promised shape side s' where
  kept n hn := (h.kept n hn).trans hclaimable
  loaded first hfirst := by
    obtain ⟨hle, heq⟩ := h.loaded first hfirst
    exact ⟨hle.trans htail, fun hside => (heq hside).trans (hown hside).symm⟩

theorem start (h : c.Promised shape side s) (job : Job) : (c.start job).Promised shape side s := by
  unfold Caller.start
  split
  · cases job with
    | transfer => exact transfer _ _
    | count => exact ⟨h.kept, nofun⟩
  · exact h

theorem step {calls : List Call} (hcons : Consistent shape s calls)
    (howns : c.Owns side (s.cursors side)) (h : c.Promised shape side s) :
    (c.step shape s).2.Promised shape side (c.step shape s).1 := by
  obtain ⟨works⟩ := c
  rcases works with - | ⟨d | probe, works⟩
  · exact h
  · exact transfer _ _
  · cases probe with
    | loadConsumerTail =>
        refine ⟨h.kept, fun first hfirst => ?_⟩
        cases hfirst
        exact ⟨Nat.le_refl _, fun _ => rfl⟩
    | loadProducerTail first =>
        obtain ⟨hle, hown⟩ := h.loaded first rfl
        refine ⟨fun n hn => ?_, nofun⟩
        rcases List.mem_cons.mp hn with rfl | hn
        · exact hcons.reading_le howns.newest hle hown
        · exact h.kept n hn
    | done => exact h

end Caller.Promised

/-! ### Calls that get all they ask for -/

namespace Call

/-- The call asks for no more than can be claimed, or it has claimed all it asked for. -/
def Reserved (shape : Shape) (s : RingState) (c : Call) : Prop :=
  match c.phase with
  | .loadHead | .loadOpposing _ =>
    0 < c.wanted.toNat ∧ c.wanted.toNat ≤ s.claimable shape c.side
  | .exchange claim | .copy claim _ | .publish claim | .moveTail claim | .done (some claim) =>
    claim.len = c.wanted
  | .done none | .broken _ _ => False

/-- Steps until the call is over, if it claims all it asked for. -/
def stepsLeft (c : Call) : Nat :=
  match c.phase with
  | .loadHead => c.wanted.toNat + 5
  | .loadOpposing _ => c.wanted.toNat + 4
  | .exchange claim => claim.len.toNat + 3
  | .copy claim copied => claim.len.toNat - copied + 2
  | .publish _ | .moveTail _ => 1
  | .done _ | .broken _ _ => 0

variable {shape : Shape} {s s' : RingState} {calls : List Call} {c : Call}

theorem isOver_of_stepsLeft (h : c.stepsLeft = 0) : c.isOver = true := by
  unfold stepsLeft at h
  unfold isOver
  split at h <;> simp_all

theorem Reserved.mono (h : c.Reserved shape s)
    (hclaimable : s.claimable shape c.side ≤ s'.claimable shape c.side) :
    c.Reserved shape s' := by
  unfold Reserved at h ⊢
  split at h
  · exact ⟨h.1, h.2.trans hclaimable⟩
  · exact ⟨h.1, h.2.trans hclaimable⟩
  all_goals exact h

/-- A call that is over has moved what it was asked for. -/
theorem Reserved.moved_eq (h : c.Reserved shape s) (hover : c.isOver = true) :
    c.moved = c.wanted.toNat := by
  unfold Reserved at h
  unfold isOver at hover
  split at hover
  · rename_i claim hphase
    cases claim with
    | none => simp only [hphase] at h
    | some claim =>
        simp only [hphase] at h
        simp only [Call.moved, hphase, h]
  · rename_i hphase
    simp only [hphase] at h
  · cases hover

theorem Reserved.step (hcons : Consistent shape s calls) (hc : c ∈ calls)
    (halone : c.Alone (s.cursors c.side)) (howned : c.access = .owned) (h : c.Reserved shape s) :
    (c.step shape s).2.Reserved shape (c.step shape s).1 ∧
      (c.step shape s).2.stepsLeft = c.stepsLeft - 1 := by
  cases hphase : c.phase with
  | loadHead =>
      simp only [Reserved, hphase] at h
      simp only [Call.step, hphase, Reserved, stepsLeft]
      exact ⟨h, by omega⟩
  | loadOpposing start =>
      simp only [Reserved, hphase] at h
      simp only [Alone, hphase] at halone
      obtain ⟨-, rfl⟩ := halone
      obtain ⟨hpos, hle⟩ := h
      have hroom : (c.room shape s).toNat = s.claimable shape c.side :=
        hcons.toNat_available_eq c.side
      have htaken : c.taken shape s = c.wanted := by
        rw [← UInt64.toNat_inj, taken, toNat_take, hroom]
        exact c.behavior.share_eq_wanted hle
      have hne : c.wanted ≠ 0 := by
        rintro hzero
        rw [hzero] at hpos
        exact absurd hpos (by decide)
      simp only [Call.step, hphase]
      rw [decide_eq (hroom ▸ hcons.claimable_le c.side), htaken, if_neg hne]
      simp only [Reserved, stepsLeft, hphase, Claim.len_mk]
      exact ⟨trivial, by omega⟩
  | exchange claim =>
      simp only [Reserved, hphase] at h
      simp only [Call.step, hphase, Call.reserve, howned, Reserved, stepsLeft]
      exact ⟨h, by omega⟩
  | copy claim copied =>
      simp only [Reserved, hphase] at h
      have hheld : c.held? = some claim := by rw [held?, hphase]
      have hlength := Claim.length_of_not_overruns (hcons.not_overruns hc hheld)
      simp only [Call.step, hphase, hlength]
      split
      · split <;> simp only [Reserved, stepsLeft, hphase] <;> exact ⟨h, by omega⟩
      · simp only [Reserved, stepsLeft, hphase]
        exact ⟨h, by omega⟩
  | publish claim =>
      simp only [Reserved, hphase] at h
      simp only [Call.step, hphase, settle, howned, Reserved, stepsLeft]
      exact ⟨h, trivial⟩
  | moveTail claim => simp only [Alone, hphase] at halone
  | done claim =>
      simp only [Call.step, hphase, stepsLeft]
      exact ⟨h, trivial⟩
  | broken panic claim => simp only [Alone, hphase] at halone

end Call

/-! ### Moves of the two endpoints -/

namespace Caller

variable {c : Caller} {k : Nat} {w : Work}

theorem work?_start (job : Job) (h : c.work? k = some w) : (c.start job).work? k = some w := by
  unfold start
  split
  · rw [work?_cons, if_neg]
    · exact h
    · rintro rfl
      rw [c.work?_length] at h
      cases h
  · exact h

/-- A step is one of the newest work, and leaves the others as they are. -/
theorem work?_step (shape : Shape) (s : RingState) (h : c.work? k = some w) :
    (c.works.head? = some w ∧ (c.step shape s).1 = (w.step shape s).1 ∧
        (c.step shape s).2.work? k = some (w.step shape s).2) ∨
      (w ∈ c.works.tail ∧ (c.step shape s).2.work? k = some w) := by
  obtain ⟨works⟩ := c
  cases works with
  | nil => cases h
  | cons newest works =>
      simp only [step, work?_cons] at h ⊢
      split at h
      · rename_i hk
        obtain rfl := Option.some.inj h
        exact .inl ⟨rfl, rfl, if_pos hk⟩
      · rename_i hk
        rw [if_neg hk]
        exact .inr ⟨List.mem_reverse.mp (List.mem_of_getElem? h), h⟩

end Caller

namespace System.Parted

variable {s : System} {owner owner' : Side → Caller} {m : Move} {side : Side}

/-- A move of the other caller leaves the cursors of a side where they are. -/
theorem cursors_act (h : s.Parted owner) (hm : m.OfOwner s.shape) (hne : side.caller ≠ m.caller) :
    (s.act m).state.cursors side = s.state.cursors side := by
  cases m with
  | start => rfl
  | step i =>
      obtain ⟨other, rfl⟩ := hm
      simp only [System.act, h.get_caller other]
      exact (h.owns other).cursors_of_ne fun heq => hne (congrArg Side.caller heq)
  | spoil => exact hm.elim

/-- And it leaves to the side what it could claim. -/
theorem claimable_le_act (h : s.Parted owner) (h' : (s.act m).Parted owner')
    (hm : m.OfOwner s.shape) (hne : side.caller ≠ m.caller) :
    s.state.claimable s.shape side ≤ (s.act m).state.claimable s.shape side := by
  have hcons := h'.consistent
  have hhorizon := h.horizon_le_act m side
  rw [(change_act m s).1] at hcons
  rw [h.consistent.claimable_eq, hcons.claimable_eq, h.cursors_act hm hne]
  omega

/-- What has been read can still be claimed after a move. -/
theorem promised_act (h : s.Parted owner) (h' : (s.act m).Parted owner') (hm : m.OfOwner s.shape)
    (hpromised : (owner side).Promised s.shape side s.state) :
    (owner' side).Promised s.shape side (s.act m).state := by
  obtain ⟨c, hc, hchange⟩ := callerChange_act m s (h'.get_caller side)
  obtain rfl := Option.some.inj ((h.get_caller side).symm.trans hc)
  have hclaimable : side.caller ≠ m.caller →
      s.state.claimable s.shape side ≤ (s.act m).state.claimable s.shape side :=
    h.claimable_le_act h' hm
  have hcursors : side.caller ≠ m.caller → (s.act m).state.cursors side = s.state.cursors side :=
    h.cursors_act hm
  have htail := h.horizon_le_act m .producer
  generalize (s.act m).state = state at hchange hclaimable hcursors htail ⊢
  generalize owner' side = c' at hchange ⊢
  cases hchange with
  | other hne =>
      refine hpromised.mono (hclaimable (Ne.symm hne)) (Nat.le_of_add_le_add_right htail) ?_
      rintro rfl
      exact congrArg Cursors.tail (hcursors (Ne.symm hne))
  | start => exact hpromised.start _
  | step => exact hpromised.step h.consistent (h.owns side)
  | spoil hspoil =>
      subst hspoil
      exact hm.elim

theorem promised_run {shape : Shape} {schedule : List Move} (hm : ∀ m ∈ schedule, m.OfOwner shape)
    (hbound : ((System.create shape 2).run schedule).claimed .producer < 2 ^ 64) :
    ∃ owner, ((System.create shape 2).run schedule).Parted owner ∧
      ∀ side, (owner side).Promised shape side ((System.create shape 2).run schedule).state := by
  have hact : ∀ (m : Move) (s : System), m.OfOwner shape → (s.act m).claimed .producer < 2 ^ 64 →
      (s.shape = shape ∧ ∃ owner, s.Parted owner ∧
        ∀ side, (owner side).Promised shape side s.state) →
      (s.act m).shape = shape ∧ ∃ owner, (s.act m).Parted owner ∧
        ∀ side, (owner side).Promised shape side (s.act m).state := by
    rintro m s hm hb ⟨rfl, owner, h, hpromised⟩
    obtain ⟨owner', h'⟩ := h.act hm hb
    exact ⟨(change_act m s).1, owner', h', fun side => h.promised_act h' hm (hpromised side)⟩
  exact (run_invariant hact hm hbound
    ⟨rfl, _, Parted.create shape, fun side => .fresh shape side _⟩).2

/-- A call that gets all it asks for is kept so by every move, and its own steps bring it to its
end. -/
theorem reserved_act (h : s.Parted owner) (h' : (s.act m).Parted owner') (hm : m.OfOwner s.shape)
    {k : Nat} {d : Call} (hwork : s.work? side.caller k = some (.transfer d))
    (hd : d.Reserved s.shape s.state) : ∃ d', (s.act m).work? side.caller k = some (.transfer d') ∧
      d'.Reserved s.shape (s.act m).state ∧ d'.wanted = d.wanted ∧ d'.stepsLeft ≤ d.stepsLeft ∧
      (m = .step side.caller → d'.stepsLeft = d.stepsLeft - 1) := by
  obtain ⟨c, hc, hchange⟩ := callerChange_act m s (h'.get_caller side)
  obtain rfl := Option.some.inj ((h.get_caller side).symm.trans hc)
  have howns := h.owns side
  have hclaimable : side.caller ≠ m.caller →
      s.state.claimable s.shape side ≤ (s.act m).state.claimable s.shape side :=
    h.claimable_le_act h' hm
  rw [work?, h.get_caller, Option.bind_some] at hwork
  rw [work?, h'.get_caller, Option.bind_some]
  generalize (s.act m).state = state at hchange hclaimable ⊢
  generalize owner' side = c' at hchange ⊢
  cases hchange with
  | other hne =>
      obtain ⟨rfl, -⟩ := howns.owned d (Caller.mem_calls_of_work? hwork)
      refine ⟨d, hwork, hd.mono (hclaimable (Ne.symm hne)), rfl, Nat.le_refl _, ?_⟩
      rintro rfl
      exact absurd rfl hne
  | start hstart =>
      refine ⟨d, Caller.work?_start _ hwork, hd, rfl, Nat.le_refl _, fun hstep => ?_⟩
      cases hstart.symm.trans hstep
  | step =>
      rcases Caller.work?_step s.shape s.state hwork with ⟨hnewest, hstate, hw⟩ | ⟨holder, hw⟩
      · have hheld : d ∈ (owner side).calls := Caller.mem_calls_of_work? hwork
        have hmem : d ∈ s.calls := (mem_calls_iff h.callers).mpr ⟨side, hheld⟩
        obtain ⟨rfl, howned⟩ := howns.owned d hheld
        have halone := howns.newest
        rw [hnewest] at halone
        obtain ⟨hkept, hleft⟩ := hd.step h.consistent hmem halone howned
        rw [hstate]
        exact ⟨_, hw, hkept, Call.wanted_step _ _ _, hleft.le.trans (Nat.sub_le _ 1),
          fun _ => hleft⟩
      · obtain ⟨claim, hphase⟩ := Work.phase_of_isDone (howns.done _ holder)
        have hzero : d.stepsLeft = 0 := by rw [Call.stepsLeft, hphase]
        refine ⟨d, hw, ?_, rfl, Nat.le_refl _, fun _ => by omega⟩
        cases claim with
        | none => simp only [Call.Reserved, hphase] at hd
        | some => simpa only [Call.Reserved, hphase] using hd
  | spoil hspoil =>
      subst hspoil
      exact hm.elim

end System.Parted

/-! ### Transfers after a reading -/

/-- The move is a step of the endpoint of this side. -/
def EndpointMove.isStepOf (side : Side) : EndpointMove → Bool
  | .step other => other == side
  | _ => false

namespace System

/-- In a run a call that gets all it asks for comes to its end by its own steps. -/
theorem Parted.reserved_run {shape : Shape} {side : Side} {k : Nat} (rest : List EndpointMove) :
    ∀ {s : System} {owner : Side → Caller} {d : Call}, s.Parted owner → s.shape = shape →
      (s.run (rest.filterMap (EndpointMove.move? shape))).claimed .producer < 2 ^ 64 →
      s.work? side.caller k = some (.transfer d) → d.Reserved shape s.state →
      let t := s.run (rest.filterMap (EndpointMove.move? shape))
      ∃ d', t.work? side.caller k = some (.transfer d') ∧ d'.Reserved shape t.state ∧
        d'.wanted = d.wanted ∧
        d'.stepsLeft ≤ d.stepsLeft - rest.countP (EndpointMove.isStepOf side) := by
  induction rest with
  | nil => exact fun _ _ _ hwork hd => ⟨_, hwork, hd, rfl, Nat.le_refl _⟩
  | cons move rest ih =>
      rintro s owner d h rfl hbound hwork hd
      cases hmove : move.move? s.shape with
      | none =>
          have hother : move.isStepOf side = false := by
            cases move with
            | step => cases hmove
            | call => rfl
            | count => rfl
          rw [List.filterMap_cons_none hmove] at hbound ⊢
          rw [List.countP_cons_of_neg (by rw [hother]; exact Bool.false_ne_true)]
          exact ih h rfl hbound hwork hd
      | some m =>
          rw [List.filterMap_cons_some hmove] at hbound ⊢
          have hm := EndpointMove.ofOwner hmove
          have hshape := (change_act m s).1
          obtain ⟨owner', h'⟩ := h.act hm ((claimed_run _ (s.act m) _).trans_lt hbound)
          obtain ⟨d', hwork', hd', hwanted, hle, hstep⟩ := h.reserved_act h' hm hwork hd
          obtain ⟨e, hwork'', he, hwanted', hle'⟩ := ih h' hshape hbound hwork' hd'
          refine ⟨e, hwork'', he, hwanted'.trans hwanted, hle'.trans ?_⟩
          cases hown : move.isStepOf side with
          | false =>
              rw [List.countP_cons_of_neg (by rw [hown]; exact Bool.false_ne_true)]
              omega
          | true =>
              rw [List.countP_cons_of_pos hown]
              have hleft : d'.stepsLeft = d.stepsLeft - 1 := by
                refine hstep ?_
                cases move with
                | step other =>
                    obtain rfl : other = side := by simpa [EndpointMove.isStepOf] using hown
                    exact (Option.some.inj hmove).symm
                | call => cases hown
                | count => cases hown
              omega

/-- **What has been read can be had.**  When an endpoint that has counted so many free slots or
elements next makes a transfer, one that is not refused and is for no more than was counted, then
whatever both endpoints do from there on, the transfer is over within its own steps and has moved
all it was for. -/
theorem reading_reserves (shape : Shape) (moves rest : List EndpointMove) (side : Side)
    (request : EndpointCall) {caller : Caller} {n : Nat}
    (hbound : ((create shape 2).run ((moves ++ .call side request :: rest).filterMap
      (EndpointMove.move? shape))).claimed .producer < 2 ^ 64)
    (hcaller : ((create shape 2).run
      (moves.filterMap (EndpointMove.move? shape))).callers[side.caller]? = some caller)
    (hidle : caller.isIdle = true) (hread : n ∈ caller.readings)
    (hformed : (request.job? shape side).isSome = true)
    (hle : request.size ≤ side.reading shape n) :
    ∃ c, ((create shape 2).run ((moves ++ .call side request :: rest).filterMap
        (EndpointMove.move? shape))).call? side.caller caller.works.length = some c ∧
      (c.isOver = true → c.moved = request.size) ∧
      (request.size + 5 ≤ rest.countP (EndpointMove.isStepOf side) → c.isOver = true) := by
  obtain ⟨job, hjob⟩ := Option.isSome_iff_exists.mp hformed
  have hmove : (EndpointMove.call side request).move? shape = some (.start side.caller job) := by
    rw [EndpointMove.move?, hjob, Option.map_some]
  set schedule := moves.filterMap (EndpointMove.move? shape)
  set s := (create shape 2).run schedule
  set s' := s.act (.start side.caller job)
  have hsplit : (create shape 2).run ((moves ++ .call side request :: rest).filterMap
      (EndpointMove.move? shape)) = s'.run (rest.filterMap (EndpointMove.move? shape)) := by
    rw [List.filterMap_append, List.filterMap_cons_some hmove]
    exact List.foldl_append ..
  rw [hsplit] at hbound ⊢
  have hm : ∀ m ∈ schedule, m.OfOwner shape := EndpointMove.ofOwner_of_mem
  have hbound' : s'.claimed .producer < 2 ^ 64 := (claimed_run _ s' _).trans_lt hbound
  obtain ⟨owner, h, hpromised⟩ :=
    Parted.promised_run hm ((claimed_act _ s _).trans_lt hbound')
  have hshape : s.shape = shape := shape_run schedule _
  obtain rfl := Option.some.inj ((h.get_caller side).symm.trans hcaller)
  have howner : Move.OfOwner s.shape (.start side.caller job) :=
    hshape.symm ▸ EndpointMove.ofOwner hmove
  obtain ⟨owner', h'⟩ := h.act howner hbound'
  have hclaimable : side.reading shape n ≤ s.state.claimable shape side :=
    (hpromised side).kept n hread
  obtain ⟨hpos, behavior, buffer, rfl, -⟩ := EndpointCall.job?_eq hjob
  have hcapacity : s.state.claimable shape side ≤ shape.capacity :=
    hshape ▸ h.consistent.claimable_le side
  have hmax := shape.capacity_le
  rw [maxCapacity] at hmax
  have hwanted : request.size.toUInt64.toNat = request.size :=
    UInt64.toNat_ofNat_of_lt' (by rw [UInt64.size]; omega)
  -- The transfer begins with what it asks for at hand.
  have hwork : s'.work? side.caller (owner side).works.length =
      some (.transfer (.begin side behavior .owned request.size.toUInt64 buffer)) := by
    have hstart : s'.callers[side.caller]? =
        some ((owner side).start (.transfer side behavior .owned
          request.size.toUInt64 buffer)) := by
      simp only [s', act, Array.getElem?_modify, if_pos, hcaller, Option.map_some]
    rw [work?, hstart, Option.bind_some, Caller.start, if_pos hidle, Caller.work?_cons, if_pos rfl]
    rfl
  have hreserved : (Call.begin side behavior .owned request.size.toUInt64 buffer).Reserved
      shape s'.state := by
    refine ⟨?_, ?_⟩
    · exact hwanted.symm ▸ hpos
    · exact hwanted.symm ▸ hle.trans hclaimable
  obtain ⟨c, hc, hkept, hwanted', hleft⟩ :=
    Parted.reserved_run rest h' ((change_act _ s).1.trans hshape) hbound hwork hreserved
  refine ⟨c, ?_, fun hover => ?_, fun hsteps => Call.isOver_of_stepsLeft ?_⟩
  · rw [call?_eq, hc]
    rfl
  · rw [hkept.moved_eq hover, hwanted']
    exact hwanted
  · have hbegin : (Call.begin side behavior .owned request.size.toUInt64 buffer).stepsLeft =
        request.size + 5 := congrArg (· + 5) hwanted
    omega

/-- The producer stores three handles and counts one free slot, while the consumer fetches two. -/
def freeSlotRead : List EndpointMove :=
  let steps (n : Nat) (side : Side) : List EndpointMove := List.replicate n (.step side)
  .call .producer (.handles #[7, 8, 9] .exactly) :: steps 8 .producer ++
    [.count .producer, .step .producer, .call .consumer (.handles #[0, 0] .exactly)] ++
    steps 7 .consumer ++ [.step .producer]

/-- It stores another one in the slot that it has read, and the consumer looks on. -/
def freeSlotUsed : List EndpointMove :=
  [.count .consumer, .step .producer, .step .consumer] ++ List.replicate 5 (.step .producer)

theorem reading_reserves_freeSlot :
    ∃ c, ((create fourHandles 2).run ((freeSlotRead ++
        .call .producer (.handles #[10] .exactly) :: freeSlotUsed).filterMap
          (EndpointMove.move? fourHandles))).call? 0 2 = some c ∧
      c.isOver = true ∧ c.moved = 1 := by
  obtain ⟨caller, hcaller, heq⟩ := Option.map_eq_some_iff.mp (by decide +kernel :
    (((create fourHandles 2).run
      (freeSlotRead.filterMap (EndpointMove.move? fourHandles))).callers[0]?).map
      (fun c => (c.isIdle, c.readings, c.works.length)) = some (true, [3], 2))
  obtain ⟨hidle, hreadings, hworks⟩ : caller.isIdle = true ∧ caller.readings = [3] ∧
    caller.works.length = 2 := by simpa using heq
  obtain ⟨c, hc, hmoved, hover⟩ := reading_reserves fourHandles freeSlotRead freeSlotUsed .producer
    (.handles #[10] .exactly) (n := 3) (by decide +kernel) hcaller hidle
    (hreadings ▸ List.mem_singleton_self 3) (by decide) (by decide)
  have hdone := hover (by decide)
  rw [hworks] at hc
  exact ⟨c, hc, hdone, hmoved hdone⟩

end System

end BurstRing
