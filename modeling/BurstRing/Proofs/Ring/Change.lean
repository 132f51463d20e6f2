import BurstRing.Proofs.Ring.Progress

/-!
# The calls of a system

The transfers that callers have begun, finished or not, form one list (`System.calls`), and a move
changes at most one entry of it (`System.change_act`).  The order of the list means nothing, so a
change is stated up to a permutation.

A claim is *held* from its grant until its publication, also by a call that is broken
(`Call.held?`), and *published* from then on (`Call.published?`).  `claimsOn` collects such claims
of one side.  No claim is ever forgotten, so the number of elements claimed on a side only grows
(`System.claimed_act`), and a bound on it at the end of a run is one all along
(`System.run_invariant`).
-/

namespace BurstRing

/-! ### Claims of a list of calls -/

namespace Call

/-- The claim whose range is reserved and not published. -/
def held? (c : Call) : Option Claim :=
  match c.phase with
  | .copy claim _ | .publish claim | .moveTail claim => some claim
  | .broken _ claim => claim
  | _ => none

/-- The claim whose range is published. -/
def published? (c : Call) : Option Claim :=
  match c.phase with
  | .done claim => claim
  | _ => none

theorem moved_eq (c : Call) : c.moved = (c.published?.map fun claim => claim.len.toNat).getD 0 := by
  unfold moved published?
  split
  · rename_i h; rw [h]; rfl
  · rename_i h
    split
    · rename_i claim hphase
      cases claim with
      | none => rfl
      | some claim => exact absurd hphase (h claim)
    · rfl

/-- Elements copied so far. -/
def copied (c : Call) : Nat :=
  match c.phase with
  | .copy _ copied => copied
  | .publish claim | .moveTail claim | .done (some claim)
  | .broken .concurrentPublication (some claim) => claim.len.toNat
  | _ => 0

/-- A granted claim is held or published. -/
theorem claim?_cases (c : Call) :
    c.held? = c.claim? ∧ c.published? = none ∨ c.held? = none ∧ c.published? = c.claim? := by
  cases hphase : c.phase <;> simp [held?, published?, claim?, hphase]

@[simp] theorem side_step (shape : Shape) (s : RingState) (c : Call) :
    (c.step shape s).2.side = c.side := by
  unfold step
  repeat' split
  all_goals rfl

@[simp] theorem access_step (shape : Shape) (s : RingState) (c : Call) :
    (c.step shape s).2.access = c.access := by
  unfold step
  repeat' split
  all_goals rfl

@[simp] theorem wanted_step (shape : Shape) (s : RingState) (c : Call) :
    (c.step shape s).2.wanted = c.wanted := by
  unfold step
  repeat' split
  all_goals rfl

@[simp] theorem side_spoil (c : Call) : c.spoil.side = c.side := by
  unfold spoil; split <;> rfl

@[simp] theorem access_spoil (c : Call) : c.spoil.access = c.access := by
  unfold spoil; split <;> rfl

theorem claim?_settle (c : Call) (claim : Claim) (k : Cursors) :
    ({ c with phase := (c.settle claim k).1 } : Call).claim? = some claim := by
  unfold settle
  repeat' split
  all_goals rfl

/-- A claim that has been granted is never forgotten. -/
theorem claim?_step (shape : Shape) (s : RingState) {c : Call} {claim : Claim}
    (h : c.claim? = some claim) : (c.step shape s).2.claim? = some claim := by
  obtain ⟨side, behavior, access, wanted, buffer, phase⟩ := c
  cases phase with
  | loadHead => cases h
  | loadOpposing => cases h
  | exchange => cases h
  | copy claim' copied =>
      cases h
      simp only [step]
      split
      · rfl
      · split
        · cases side <;> rfl
        · rfl
  | publish claim' =>
      cases h
      exact claim?_settle _ _ _
  | moveTail => exact h
  | done => exact h
  | broken => exact h

theorem claim?_spoil {c : Call} {claim : Claim} (h : c.claim? = some claim) :
    c.spoil.claim? = some claim := by
  unfold spoil
  split
  · rename_i hphase _
    simp [claim?, hphase] at h
  · exact h

end Call

/-- The claims that `pick` finds among the calls of one side. -/
def claimsOn (side : Side) (pick : Call → Option Claim) (calls : List Call) : List Claim :=
  calls.filterMap fun c => if c.side = side then pick c else none

/-- Elements claimed on one side, ever. -/
def claimedOn (side : Side) (calls : List Call) : Nat :=
  ((claimsOn side Call.claim? calls).map fun c => c.len.toNat).sum

section Claims

variable {side : Side} {pick : Call → Option Claim} {calls calls' : List Call} {c : Call}
  {claim : Claim}

theorem claimsOn_perm (h : calls.Perm calls') :
    (claimsOn side pick calls).Perm (claimsOn side pick calls') :=
  h.filterMap _

theorem mem_claimsOn : claim ∈ claimsOn side pick calls ↔
    ∃ c ∈ calls, c.side = side ∧ pick c = some claim := by
  simp only [claimsOn, List.mem_filterMap]
  constructor
  · rintro ⟨c, hc, h⟩
    split at h
    · exact ⟨c, hc, ‹_›, h⟩
    · cases h
  · rintro ⟨c, hc, hs, h⟩
    exact ⟨c, hc, by rw [if_pos hs, h]⟩

theorem claimsOn_cons_some (hs : c.side = side) (h : pick c = some claim) :
    claimsOn side pick (c :: calls) = claim :: claimsOn side pick calls := by
  simp [claimsOn, hs, h]

theorem claimsOn_cons_none (h : pick c = none) :
    claimsOn side pick (c :: calls) = claimsOn side pick calls := by
  simp [claimsOn, h]

theorem claimsOn_cons_of_ne (hs : c.side ≠ side) :
    claimsOn side pick (c :: calls) = claimsOn side pick calls := by
  simp [claimsOn, hs]

/-- What a call of the other side becomes does not matter. -/
theorem claimsOn_replace {c' : Call} (hs : c.side ≠ side) (hs' : c'.side = c.side) :
    claimsOn side pick (c' :: calls) = claimsOn side pick (c :: calls) := by
  rw [claimsOn_cons_of_ne hs, claimsOn_cons_of_ne (hs' ▸ hs)]

theorem claimedOn_perm (h : calls.Perm calls') : claimedOn side calls = claimedOn side calls' :=
  ((claimsOn_perm h).map _).sum_eq

/-- The granted claims are those published and those held. -/
theorem claimsOn_claim?_perm (side : Side) (calls : List Call) :
    (claimsOn side Call.claim? calls).Perm
      (claimsOn side Call.published? calls ++ claimsOn side Call.held? calls) := by
  induction calls with
  | nil => exact .refl _
  | cons c calls ih =>
      by_cases hs : c.side = side
      · cases hclaim : c.claim? with
        | none =>
            rcases c.claim?_cases with ⟨h, h'⟩ | ⟨h, h'⟩
            · rwa [claimsOn_cons_none hclaim, claimsOn_cons_none (h.trans hclaim),
                claimsOn_cons_none h']
            · rwa [claimsOn_cons_none hclaim, claimsOn_cons_none h,
                claimsOn_cons_none (h'.trans hclaim)]
        | some claim =>
            rcases c.claim?_cases with ⟨h, h'⟩ | ⟨h, h'⟩
            · rw [claimsOn_cons_some hs hclaim, claimsOn_cons_some hs (h.trans hclaim),
                claimsOn_cons_none h']
              exact (ih.cons claim).trans List.perm_middle.symm
            · rw [claimsOn_cons_some hs hclaim, claimsOn_cons_none h,
                claimsOn_cons_some hs (h'.trans hclaim)]
              exact ih.cons claim
      · rw [claimsOn_cons_of_ne hs, claimsOn_cons_of_ne hs, claimsOn_cons_of_ne hs]
        exact ih

/-- A call that keeps its claim, or had none, claims no less. -/
theorem claimedOn_cons_le {c' : Call} (hs : c'.side = c.side)
    (h : ∀ claim, c.claim? = some claim → c'.claim? = some claim) :
    claimedOn side (c :: calls) ≤ claimedOn side (c' :: calls) := by
  by_cases hside : c.side = side
  · cases hclaim : c.claim? with
    | none =>
        rw [claimedOn, claimsOn_cons_none hclaim, claimedOn]
        cases hclaim' : c'.claim? with
        | none => rw [claimsOn_cons_none hclaim']
        | some claim' =>
            rw [claimsOn_cons_some (hs.trans hside) hclaim', List.map_cons, List.sum_cons]
            exact Nat.le_add_left _ _
    | some claim =>
        rw [claimedOn, claimsOn_cons_some hside hclaim, claimedOn,
          claimsOn_cons_some (hs.trans hside) (h claim hclaim)]
  · rw [claimedOn, claimsOn_cons_of_ne hside, claimedOn, claimsOn_cons_of_ne (hs ▸ hside)]

end Claims

/-! ### Moves -/

/-- The transfer, unless the work is a count. -/
def Work.call? : Work → Option Call
  | .transfer c => some c
  | .probe _ => none

/-- The transfers of a caller, newest first. -/
def Caller.calls (c : Caller) : List Call := c.works.filterMap Work.call?

/-- The transfer that a job begins, unless it is a count. -/
def Job.call? : Job → Option Call
  | .transfer side behavior access wanted buffer =>
    some (.begin side behavior access wanted buffer)
  | .count => none

/-- The transfer that a move may begin. -/
def Move.call? : Move → Option Call
  | .start _ job => job.call?
  | .step _ | .spoil _ => none

theorem Job.call?_begin (job : Job) : job.begin.call? = job.call? := by
  cases job <;> rfl

namespace System

/-- All transfers begun so far, finished or not. -/
def calls (s : System) : List Call := s.callers.toList.flatMap Caller.calls

theorem mem_calls {s : System} {c : Call} :
    c ∈ s.calls ↔ ∃ caller ∈ s.callers, c ∈ caller.calls := by
  simp only [calls, List.mem_flatMap, Array.mem_toList_iff]

/-- Elements claimed on one side so far. -/
def claimed (s : System) (side : Side) : Nat := claimedOn side s.calls

/-- What a move makes of the ring and the calls on it. -/
inductive Change (shape : Shape) (m : Move) :
    RingState → List Call → RingState → List Call → Prop where
  | none (s : RingState) (calls : List Call) : Change shape m s calls s calls
  | begin {c : Call} (s : RingState) (calls : List Call) (h : m.call? = some c) :
      Change shape m s calls s (c :: calls)
  | step (s : RingState) (c : Call) (rest : List Call) :
      Change shape m s (c :: rest) (c.step shape s).1 ((c.step shape s).2 :: rest)
  | spoil (s : RingState) (c : Call) (rest : List Call) :
      Change shape m s (c :: rest) s (c.spoil :: rest)

/-- Replacing one caller replaces its calls among all. -/
theorem calls_set {callers : Array Caller} {i : Nat} {caller : Caller}
    (h : callers[i]? = some caller) :
    ∃ rest, (callers.toList.flatMap Caller.calls).Perm (caller.calls ++ rest) ∧
      ∀ caller', ((callers.setIfInBounds i caller').toList.flatMap Caller.calls).Perm
        (caller'.calls ++ rest) := by
  obtain ⟨hi, hcaller⟩ := Array.getElem?_eq_some_iff.mp h
  have hlen : i < callers.toList.length := by simpa using hi
  refine ⟨(callers.toList.take i).flatMap Caller.calls ++
    (callers.toList.drop (i + 1)).flatMap Caller.calls, ?_, fun caller' => ?_⟩
  · have hsplit : callers.toList =
        callers.toList.take i ++ caller :: callers.toList.drop (i + 1) := by
      rw [← hcaller, ← Array.getElem_toList hi, List.getElem_cons_drop, List.take_append_drop]
    rw [hsplit, List.flatMap_append, List.flatMap_cons, ← hsplit]
    exact List.perm_append_comm_assoc _ _ _
  · rw [Array.toList_setIfInBounds, List.set_eq_take_append_cons_drop, if_pos hlen,
      List.flatMap_append, List.flatMap_cons]
    exact List.perm_append_comm_assoc _ _ _

theorem modify_eq_set {callers : Array Caller} {i : Nat} {caller : Caller}
    (h : callers[i]? = some caller) (f : Caller → Caller) :
    callers.modify i f = callers.setIfInBounds i (f caller) := by
  refine Array.ext_getElem? fun j => ?_
  rw [Array.getElem?_modify, Array.getElem?_setIfInBounds]
  obtain ⟨hi, -⟩ := Array.getElem?_eq_some_iff.mp h
  split
  · rename_i hij
    subst hij
    rw [h, Option.map_some]
  · rfl

theorem modify_eq_self {callers : Array Caller} {i : Nat} (h : callers[i]? = none)
    (f : Caller → Caller) : callers.modify i f = callers := by
  refine Array.ext_getElem? fun j => ?_
  rw [Array.getElem?_modify]
  split
  · rename_i hij
    subst hij
    rw [h, Option.map_none]
  · rfl

/-- A move changes at most one call, as its kind says. -/
theorem change_act (m : Move) (s : System) :
    (s.act m).shape = s.shape ∧ ∃ before after, s.calls.Perm before ∧
      (s.act m).calls.Perm after ∧ Change s.shape m s.state before (s.act m).state after := by
  -- Every move replaces one caller, or changes nothing if there is no such caller.
  have replaced : ∀ {i : Nat} {caller : Caller}, s.callers[i]? = some caller →
      ∀ (state : RingState) (caller' : Caller) (after : List Call → List Call),
        (∀ rest, (caller'.calls ++ rest).Perm (after rest)) →
        (∀ rest, ∃ before, (caller.calls ++ rest).Perm before ∧
          Change s.shape m s.state before state (after rest)) →
        ∃ before after, s.calls.Perm before ∧
          (calls ⟨s.shape, state, s.callers.setIfInBounds i caller'⟩).Perm after ∧
            Change s.shape m s.state before state after := by
    intro i caller h state caller' after hafter hchange
    obtain ⟨rest, hold, hnew⟩ := calls_set h
    obtain ⟨before, hbefore, hc⟩ := hchange rest
    exact ⟨before, after rest, hold.trans hbefore, (hnew caller').trans (hafter rest), hc⟩
  have unchanged : ∃ before after, s.calls.Perm before ∧ s.calls.Perm after ∧
      Change s.shape m s.state before s.state after :=
    ⟨_, _, .refl _, .refl _, .none _ _⟩
  cases m with
  | start i job =>
      refine ⟨rfl, ?_⟩
      simp only [act]
      cases h : s.callers[i]? with
      | none => rw [modify_eq_self h]; exact unchanged
      | some caller =>
          rw [modify_eq_set h]
          unfold Caller.start
          split
          · cases hjob : job.call? with
            | none =>
                refine replaced h s.state _ (caller.calls ++ ·) (fun rest => ?_)
                  fun rest => ⟨_, .refl _, .none _ _⟩
                rw [Caller.calls, List.filterMap_cons_none (job.call?_begin.trans hjob)]
                exact .refl _
            | some c =>
                refine replaced h s.state _ (c :: caller.calls ++ ·) (fun rest => ?_)
                  fun rest => ⟨_, .refl _, .begin _ _ hjob⟩
                rw [Caller.calls, List.filterMap_cons_some (job.call?_begin.trans hjob)]
                exact .refl _
          · exact replaced h s.state _ (caller.calls ++ ·) (fun _ => .refl _)
              fun rest => ⟨_, .refl _, .none _ _⟩
  | step i =>
      obtain ⟨shape, state, callers⟩ := s
      simp only [act]
      cases h : callers[i]? with
      | none => exact ⟨rfl, unchanged⟩
      | some caller =>
          refine ⟨rfl, ?_⟩
          obtain ⟨works⟩ := caller
          rcases works with - | ⟨work | probe, works⟩
          · exact replaced h state _ _ (fun _ => .refl _) fun rest => ⟨_, .refl _, .none _ _⟩
          · exact replaced h _ _ _ (fun _ => .refl _) fun rest => ⟨_, .refl _, .step _ _ _⟩
          · exact replaced h state _ _ (fun _ => .refl _) fun rest => ⟨_, .refl _, .none _ _⟩
  | spoil i =>
      refine ⟨rfl, ?_⟩
      simp only [act]
      cases h : s.callers[i]? with
      | none => rw [modify_eq_self h]; exact unchanged
      | some caller =>
          rw [modify_eq_set h]
          obtain ⟨works⟩ := caller
          rcases works with - | ⟨work | probe, works⟩
          · exact replaced h s.state _ _ (fun _ => .refl _) fun rest => ⟨_, .refl _, .none _ _⟩
          · exact replaced h s.state _ _ (fun _ => .refl _) fun rest => ⟨_, .refl _, .spoil _ _ _⟩
          · exact replaced h s.state _ _ (fun _ => .refl _) fun rest => ⟨_, .refl _, .none _ _⟩

/-! ### Runs -/

theorem claimed_act (m : Move) (s : System) (side : Side) :
    s.claimed side ≤ (s.act m).claimed side := by
  obtain ⟨-, before, after, hb, ha, hchange⟩ := change_act m s
  rw [claimed, claimed, claimedOn_perm hb, claimedOn_perm ha]
  generalize (s.act m).state = state at hchange
  cases hchange with
  | none => exact Nat.le_refl _
  | begin _ _ h =>
      rename_i c
      rw [claimedOn, claimedOn]
      by_cases hs : c.side = side
      · cases hc : c.claim? with
        | none => rw [claimsOn_cons_none hc]
        | some claim =>
            rw [claimsOn_cons_some hs hc, List.map_cons, List.sum_cons]
            exact Nat.le_add_left _ _
      · rw [claimsOn_cons_of_ne hs]
  | step _ c rest => exact claimedOn_cons_le (by simp) fun _ h => Call.claim?_step _ _ h
  | spoil _ c rest => exact claimedOn_cons_le (by simp) fun _ h => Call.claim?_spoil h

theorem claimed_run (schedule : List Move) (s : System) (side : Side) :
    s.claimed side ≤ (s.run schedule).claimed side := by
  induction schedule generalizing s with
  | nil => exact Nat.le_refl _
  | cons m schedule ih => exact (claimed_act m s side).trans (ih (s.act m))

/-- What every allowed move keeps, as long as fewer than `2 ^ 64` elements have been claimed by
producers, a whole run keeps. -/
theorem run_invariant {P : System → Prop} {allowed : Move → Prop}
    (hact : ∀ m s, allowed m → (s.act m).claimed .producer < 2 ^ 64 → P s → P (s.act m))
    {schedule : List Move} (hall : ∀ m ∈ schedule, allowed m) {s : System}
    (hbound : (s.run schedule).claimed .producer < 2 ^ 64) (h : P s) : P (s.run schedule) := by
  induction schedule generalizing s with
  | nil => exact h
  | cons m schedule ih =>
      have hm : (s.act m).claimed .producer < 2 ^ 64 :=
        Nat.lt_of_le_of_lt (claimed_run schedule (s.act m) .producer) hbound
      exact ih (fun m' hm' => hall m' (List.mem_cons_of_mem _ hm')) hbound
        (hact m s (hall m List.mem_cons_self) hm h)

end System

end BurstRing
