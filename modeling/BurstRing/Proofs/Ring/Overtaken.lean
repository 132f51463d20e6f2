import BurstRing.Proofs.Ring.Alone
import BurstRing.Proofs.Ring.Shortfall

/-!
# Only a claim that was overtaken is taken up again

A call that claims beside others loads its head, and then it reads how much there is to claim.
Against the head as it stands the reading is what can be claimed (`Consistent.toNat_available_eq`),
so it is never above the capacity.  A reading above the capacity therefore tells that the head has
moved on since it was loaded (`Consistent.start_lt_head`), and as heads only move forward, an
exchange from there fails at any later moment.

Where no other caller takes a step in between, the head is still the one that was loaded.  Then the
first reading decides: within three steps, and in either mode, the call ends with nothing if there
is nothing for it to claim, and else it is granted its share (`System.rereads_only_overtaken`).
-/

namespace BurstRing

theorem Cursors.exchange_granted_iff {mode : SyncMode} {claim : Claim} {k : Cursors} :
    (k.exchange mode claim).1 = .granted ↔ k.head = claim.start := by
  unfold exchange
  split
  · rename_i h
    exact iff_of_true rfl h
  · rename_i h
    cases mode <;> exact iff_of_false nofun h

/-- A call beside others reads again just when its reading is above the capacity. -/
theorem Call.decide_eq_loadHead_iff {shape : Shape} {c : Call} {start tail : UInt64}
    (haccess : c.access ≠ .owned) : c.decide shape start tail = .loadHead ↔
      shape.capacity < (available shape c.side start tail).toNat := by
  cases hmode : c.access with
  | owned => exact absurd hmode haccess
  | shared mode =>
      have hlimit : (limit shape (.shared mode)).any (· < available shape c.side start tail) =
          true ↔ shape.capacity < (available shape c.side start tail).toNat := by
        rw [limit, Option.any_some, decide_eq_true_eq, UInt64.lt_iff_toNat_lt,
          Shape.toNat_capacity]
      rw [Call.decide, judge, hmode, ← hlimit]
      by_cases h : (limit shape (.shared mode)).any (· < available shape c.side start tail) = true
      · rw [if_pos h]
        exact iff_of_true rfl h
      · refine iff_of_false (fun heq => ?_) h
        simp only [if_neg h] at heq
        split at heq <;> rename_i hjudge
        · split at hjudge <;> cases hjudge
        · cases heq
        · cases heq

namespace Consistent

variable {shape : Shape} {s : RingState} {calls : List Call} {c : Call}

/-- A reading above the capacity is one against a head that has moved on. -/
theorem start_lt_head (h : Consistent shape s calls) (hc : c ∈ calls) {start : UInt64}
    (hphase : c.phase = .loadOpposing start)
    (habove : shape.capacity <
      (Call.available shape c.side start (s.cursors c.side.opposite).tail).toNat) :
    start.toNat < (s.cursors c.side).head.toNat := by
  have hle := h.sound c hc
  simp only [Call.Sound, hphase] at hle
  refine Nat.lt_of_le_of_ne hle fun heq => ?_
  obtain rfl := UInt64.toNat_inj.mp heq
  have hclaimable := h.claimable_le c.side
  rw [h.toNat_available_eq] at habove
  omega

end Consistent

namespace System

variable {s : System}

theorem transfer_of_newest? {α : Type} {i : Nat} {f : Call → α} {a : α}
    (h : ((s.newest? i).bind Work.call?).map f = some a) :
    ∃ c, s.newest? i = some (.transfer c) ∧ f c = a := by
  obtain ⟨c, hcall, hfc⟩ := Option.map_eq_some_iff.mp h
  obtain ⟨work, hnewest, hwork⟩ := Option.bind_eq_some_iff.mp hcall
  cases work with
  | transfer c' => cases hwork; exact ⟨c, hnewest, hfc⟩
  | probe => cases hwork

theorem mem_calls_of_newest? {i : Nat} {c : Call} (h : s.newest? i = some (.transfer c)) :
    c ∈ s.calls := by
  obtain ⟨caller, hcaller, hnewest⟩ := Option.bind_eq_some_iff.mp h
  exact mem_calls.mpr ⟨caller, Array.mem_of_getElem? hcaller,
    List.mem_filterMap.mpr ⟨_, List.mem_of_head? hnewest, rfl⟩⟩

theorem newest?_step {i : Nat} {c : Call} (h : s.newest? i = some (.transfer c)) :
    (s.act (.step i)).newest? i = some (.transfer (c.step s.shape s.state).2) ∧
      (s.act (.step i)).state = (c.step s.shape s.state).1 := by
  obtain ⟨⟨works⟩, hcaller, hnewest⟩ := Option.bind_eq_some_iff.mp h
  obtain ⟨hi, -⟩ := Array.getElem?_eq_some_iff.mp hcaller
  cases works with
  | nil => cases hnewest
  | cons newest works =>
      cases hnewest
      have hact : s.act (.step i) = ⟨s.shape, (c.step s.shape s.state).1,
          s.callers.setIfInBounds i ⟨.transfer (c.step s.shape s.state).2 :: works⟩⟩ := by
        simp only [act, hcaller]
        rfl
      rw [hact]
      refine ⟨?_, rfl⟩
      rw [newest?, Array.getElem?_setIfInBounds_self_of_lt hi, Option.bind_some]
      rfl

/-- Steps of one caller in a row are steps of a call that is alone. -/
theorem run_steps {i : Nat} (n : Nat) : ∀ {s : System} {c : Call},
    s.newest? i = some (.transfer c) →
      (s.run (List.replicate n (.step i))).newest? i =
          some (.transfer (c.runAlone s.shape n s.state).2) ∧
        (s.run (List.replicate n (.step i))).state = (c.runAlone s.shape n s.state).1 := by
  induction n with
  | zero => exact fun h => ⟨h, rfl⟩
  | succ n ih =>
      intro s c h
      obtain ⟨hnewest, hstate⟩ := newest?_step h
      have hrest := ih hnewest
      rw [hstate, (change_act (.step i) s).1] at hrest
      rw [List.replicate_succ, Call.runAlone]
      cases hover : c.isOver with
      | false => exact hrest
      | true =>
          rw [Call.step_of_isOver _ _ hover] at hrest
          have hstay : c.runAlone s.shape n s.state = (s.state, c) :=
            (Call.Reaches.refl s.state c).runAlone_eq hover (Nat.zero_le n)
          rw [hstay] at hrest
          exact hrest

/-- Heads only move forward. -/
theorem Orderly.head_le_run {schedule : List Move} (h : s.Orderly) (h' : (s.run schedule).Orderly)
    (side : Side) :
    (s.state.cursors side).head.toNat ≤ ((s.run schedule).state.cursors side).head.toNat := by
  rw [← h.consistent.claimedOn_eq, ← h'.consistent.claimedOn_eq]
  exact claimed_run schedule s side

/-- **Overtaken or decided.**  A shared call reads again just when its reading is above the
capacity; then its head has moved on, and from where it was loaded no exchange is granted now or
later.  And in every state a call that is about to load its head, and takes its steps with no other
step in between, decides with the first reading: it ends with nothing if its share of what is
claimable is nothing, and else it is granted its share. -/
theorem rereads_only_overtaken (shape : Shape) (callers : Nat) (before after : List Move)
    (hshared : ∀ m ∈ before ++ after, m.IsShared)
    (hbound : ((create shape callers).run (before ++ after)).claimed .producer < 2 ^ 64) :
    let s := (create shape callers).run before
    (∀ c ∈ s.calls, ∀ start, c.phase = .loadOpposing start →
      let reading := Call.available shape c.side start (s.state.cursors c.side.opposite).tail
      ((c.step shape s.state).2.phase = .loadHead ↔ shape.capacity < reading.toNat) ∧
      (shape.capacity < reading.toNat → (s.state.cursors c.side).head ≠ start ∧
        ∀ mode stop, (((s.run after).state.cursors c.side).exchange mode ⟨start, stop⟩).1 ≠
          .granted)) ∧
    ∀ i c, s.newest? i = some (.transfer c) → c.phase = .loadHead →
      let share := c.behavior.share c.wanted.toNat (s.state.claimable shape c.side)
      let t := s.run (List.replicate 3 (.step i))
      share = 0 ∧ t.newest? i = some (.transfer { c with phase := .done none }) ∧
          t.state = s.state ∨
        0 < share ∧ ∃ claim : Claim, claim.start = (s.state.cursors c.side).head ∧
          claim.len.toNat = share ∧
          t.newest? i = some (.transfer { c with phase := .copy claim 0 }) ∧
          t.state = s.state.setCursors c.side ((s.state.cursors c.side).reserve claim) := by
  intro s
  have hrun : (create shape callers).run (before ++ after) = s.run after := List.foldl_append ..
  rw [hrun] at hbound
  have ho : s.Orderly := (orderly_create shape callers).run
    (fun m hm => hshared m (List.mem_append_left _ hm)) ((claimed_run after s _).trans_lt hbound)
  have ho' : (s.run after).Orderly :=
    ho.run (fun m hm => hshared m (List.mem_append_right _ hm)) hbound
  have hshape : s.shape = shape := shape_run before _
  have hcons := ho.consistent
  rw [hshape] at hcons
  refine ⟨fun c hc start hphase => ⟨?_, fun habove => ?_⟩, fun i c hnewest hphase => ?_⟩
  · simp only [Call.step, hphase]
    exact Call.decide_eq_loadHead_iff (ho.shared c hc)
  · have hlt := hcons.start_lt_head hc hphase habove
    have hle := ho.head_le_run ho' c.side
    refine ⟨fun heq => ?_, fun mode stop hgranted => ?_⟩
    · rw [heq] at hlt
      omega
    · have heq : ((s.run after).state.cursors c.side).head = start :=
        Cursors.exchange_granted_iff.mp hgranted
      rw [heq] at hle
      omega
  · obtain ⟨hcall, hstate⟩ := run_steps 3 hnewest
    rw [hshape] at hcall hstate
    have hroom : (c.room shape s.state).toNat = s.state.claimable shape c.side :=
      hcons.toNat_available_eq c.side
    rcases Call.share_cases c hphase hroom (hcons.claimable_le c.side) with
      ⟨hzero, hend⟩ | ⟨k, hk, hpos, hlen, hcopy⟩
    · rw [hend.runAlone_eq rfl (Nat.le_succ 2)] at hcall hstate
      exact .inl ⟨hzero, hcall, hstate⟩
    · rw [hcopy 0] at hcall hstate
      exact .inr ⟨hk ▸ hpos, _, rfl, (congrArg UInt64.toNat hlen).trans hk, hcall, hstate⟩

/-- A burst loads its head and sleeps while three elements are stored and two of them are fetched,
so that it finds six slots of four. -/
def overtaken : List Move :=
  let put : Job := .transfer .producer .atMost (.shared .multi) 3 (Array.replicate 12 7)
  let get : Job := .transfer .consumer .atMost (.shared .single) 2 (Array.replicate 8 0)
  [.start 1 put, .step 1, .start 0 put] ++ List.replicate 9 (.step 0) ++
    .start 2 get :: List.replicate 7 (.step 2)

theorem rereads_only_overtaken_six :
    let s := (create fourSlots 3).run overtaken
    let back := (create fourSlots 3).run (overtaken ++ [.step 1])
    (∃ c, s.newest? 1 = some (.transfer c) ∧ (c.step fourSlots s.state).2.phase = .loadHead ∧
      (s.state.cursors c.side).head ≠ 0) ∧
    ∃ c claim, back.newest? 1 = some (.transfer c) ∧ claim.len.toNat = 3 ∧
      (back.run (List.replicate 3 (.step 1))).newest? 1 =
        some (.transfer { c with phase := .copy claim 0 }) := by
  intro s back
  obtain ⟨hreading, -⟩ :=
    rereads_only_overtaken fourSlots 3 overtaken [.step 1] (by decide) (by decide +kernel)
  obtain ⟨-, hdecides⟩ :=
    rereads_only_overtaken fourSlots 3 (overtaken ++ [.step 1]) [] (by decide) (by decide +kernel)
  constructor
  · obtain ⟨c, hnewest, hc⟩ := transfer_of_newest? (by decide +kernel :
      ((newest? (run overtaken (create fourSlots 3)) 1).bind Work.call?).map
        (fun c => (c.side, c.phase)) = some (.producer, .loadOpposing 0))
    obtain ⟨hside, hphase⟩ := Prod.mk.inj hc
    obtain ⟨hiff, hlater⟩ := hreading c (mem_calls_of_newest? hnewest) 0 hphase
    have habove : fourSlots.capacity <
        (Call.available fourSlots c.side 0 (s.state.cursors c.side.opposite).tail).toNat := by
      rw [hside]
      decide +kernel
    exact ⟨c, hnewest, hiff.mpr habove, (hlater habove).1⟩
  · obtain ⟨c, hnewest, hc⟩ := transfer_of_newest? (by decide +kernel :
      ((newest? (run (overtaken ++ [.step 1]) (create fourSlots 3)) 1).bind Work.call?).map
        (fun c => (c.side, c.behavior, c.wanted, c.phase)) =
      some (.producer, .atMost, 3, .loadHead))
    obtain ⟨hside, hbehavior, hwanted, hphase⟩ : c.side = .producer ∧ c.behavior = .atMost ∧
      c.wanted = 3 ∧ c.phase = .loadHead := by simpa using hc
    have hshare : c.behavior.share c.wanted.toNat (back.state.claimable fourSlots c.side) = 3 := by
      rw [hside, hbehavior, hwanted]
      decide +kernel
    rcases hdecides 1 c hnewest hphase with ⟨hzero, -, -⟩ | ⟨-, claim, -, hlen, hgranted, -⟩
    · cases hshare.symm.trans hzero
    · exact ⟨c, claim, hnewest, hlen.trans hshare, hgranted⟩

end System

end BurstRing
