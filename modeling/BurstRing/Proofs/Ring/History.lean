import BurstRing.Proofs.Ring.Exclusive

/-!
# Calls through a run

The works of a caller are numbered in the order in which it began them, so that a work keeps its
number through a run (`System.work?`, and `System.call?` for a transfer).  What a move makes of one
caller is said by `System.CallerChange`, and from it what it makes of one numbered work or call.
`System.lastLoad?` finds, in a schedule, the last moment at which a call loaded the tail across;
what the call does after that rests on what the cursors were then.
-/

namespace BurstRing

/-- The call is about to load the tail across. -/
def Call.isLoading (c : Call) : Bool :=
  match c.phase with
  | .loadOpposing _ => true
  | _ => false

theorem Call.isLoading_iff {c : Call} :
    c.isLoading = true ↔ ∃ start, c.phase = .loadOpposing start := by
  unfold isLoading
  split
  · rename_i start hphase
    exact iff_of_true rfl ⟨start, hphase⟩
  · rename_i hphase
    exact iff_of_false Bool.false_ne_true fun ⟨start, h⟩ => hphase start h

theorem Call.spoil_cases (c : Call) : c.spoil = c ∨ c.spoil.phase = .loadHead := by
  unfold spoil
  split
  · exact .inr rfl
  · exact .inl rfl

/-- The caller's work number `k`, the oldest being number 0. -/
def Caller.work? (c : Caller) (k : Nat) : Option Work := c.works.reverse[k]?

/-- The transfer that is the caller's work number `k`, the oldest being number 0. -/
def Caller.call? (c : Caller) (k : Nat) : Option Call := c.works.reverse[k]?.bind Work.call?

theorem Caller.work?_cons (work : Work) (works : List Work) (k : Nat) :
    Caller.work? ⟨work :: works⟩ k =
      if k = works.length then some work else Caller.work? ⟨works⟩ k := by
  rw [work?, work?, List.reverse_cons]
  split
  · rename_i hk
    rw [hk, ← List.length_reverse, List.getElem?_concat_length]
  · rename_i hk
    rcases Nat.lt_or_ge k works.reverse.length with hlt | hge
    · rw [List.getElem?_append_left hlt]
    · rw [List.getElem?_eq_none (by simp at hge ⊢; omega), List.getElem?_eq_none hge]

/-- There is nothing yet where the next work goes. -/
theorem Caller.work?_length (c : Caller) : c.work? c.works.length = none := by
  rw [work?, List.getElem?_eq_none (by rw [List.length_reverse])]

theorem Caller.mem_calls_of_work? {caller : Caller} {k : Nat} {c : Call}
    (h : caller.work? k = some (.transfer c)) : c ∈ caller.calls :=
  List.mem_filterMap.mpr ⟨_, List.mem_reverse.mp (List.mem_of_getElem? h), rfl⟩

theorem Caller.mem_calls_of_call? {caller : Caller} {k : Nat} {c : Call}
    (h : caller.call? k = some c) : c ∈ caller.calls := by
  obtain ⟨work, hwork, hc⟩ := Option.bind_eq_some_iff.mp h
  exact List.mem_filterMap.mpr ⟨work, List.mem_reverse.mp (List.mem_of_getElem? hwork), hc⟩

/-- The caller that makes the move. -/
def Move.caller : Move → Nat
  | .start i _ | .step i | .spoil i => i

namespace System

/-- Work number `k` of caller `i`. -/
def work? (s : System) (i k : Nat) : Option Work := s.callers[i]?.bind (·.work? k)

/-- The transfer that is work number `k` of caller `i`. -/
def call? (s : System) (i k : Nat) : Option Call := s.callers[i]?.bind (·.call? k)

theorem call?_eq (s : System) (i k : Nat) : s.call? i k = (s.work? i k).bind Work.call? :=
  (Option.bind_assoc ..).symm

theorem mem_calls_of_call? {s : System} {i k : Nat} {c : Call} (h : s.call? i k = some c) :
    c ∈ s.calls := by
  obtain ⟨caller, hcaller, hcall⟩ := Option.bind_eq_some_iff.mp h
  exact mem_calls.mpr ⟨caller, Array.mem_of_getElem? hcaller, Caller.mem_calls_of_call? hcall⟩

/-! ### What a move makes of one caller -/

/-- What a move makes of caller `i`, and of the ring. -/
inductive CallerChange (shape : Shape) (m : Move) (i : Nat) (s : RingState) :
    Caller → RingState → Caller → Prop where
  | other (h : m.caller ≠ i) (s' : RingState) (c : Caller) : CallerChange shape m i s c s' c
  | start {job : Job} (h : m = .start i job) (c : Caller) :
      CallerChange shape m i s c s (c.start job)
  | step (h : m = .step i) (c : Caller) :
      CallerChange shape m i s c (c.step shape s).1 (c.step shape s).2
  | spoil (h : m = .spoil i) (c : Caller) : CallerChange shape m i s c s c.spoil

theorem callerChange_act (m : Move) (s : System) {i : Nat} {c' : Caller}
    (h : (s.act m).callers[i]? = some c') : ∃ c, s.callers[i]? = some c ∧
      CallerChange s.shape m i s.state c (s.act m).state c' := by
  have other : m.caller ≠ i → (s.act m).callers[i]? = s.callers[i]? → ∃ c,
      s.callers[i]? = some c ∧ CallerChange s.shape m i s.state c (s.act m).state c' :=
    fun hne heq => ⟨c', heq ▸ h, .other hne _ _⟩
  cases m with
  | start j job =>
      by_cases hji : j = i
      · subst hji
        simp only [act, Array.getElem?_modify, if_pos, Option.map_eq_some_iff] at h
        obtain ⟨c, hc, rfl⟩ := h
        exact ⟨c, hc, .start rfl c⟩
      · exact other hji (by simp only [act, Array.getElem?_modify, if_neg hji])
  | step j =>
      obtain ⟨shape, state, callers⟩ := s
      cases hcaller : callers[j]? with
      | none =>
          have hact : act (.step j) ⟨shape, state, callers⟩ = ⟨shape, state, callers⟩ := by
            simp only [act, hcaller]
          by_cases hji : j = i
          · subst hji
            rw [hact, hcaller] at h
            cases h
          · exact other hji (by rw [hact])
      | some c =>
          have hact : act (.step j) ⟨shape, state, callers⟩ = ⟨shape, (c.step shape state).1,
              callers.setIfInBounds j (c.step shape state).2⟩ := by
            simp only [act, hcaller]
          rw [hact] at h other ⊢
          by_cases hji : j = i
          · subst hji
            obtain ⟨hj, -⟩ := Array.getElem?_eq_some_iff.mp hcaller
            obtain rfl :=
              Option.some.inj ((Array.getElem?_setIfInBounds_self_of_lt hj).symm.trans h)
            exact ⟨c, hcaller, .step rfl c⟩
          · exact other hji (Array.getElem?_setIfInBounds_ne hji)
  | spoil j =>
      by_cases hji : j = i
      · subst hji
        simp only [act, Array.getElem?_modify, if_pos, Option.map_eq_some_iff] at h
        obtain ⟨c, hc, rfl⟩ := h
        exact ⟨c, hc, .spoil rfl c⟩
      · exact other hji (by simp only [act, Array.getElem?_modify, if_neg hji])

/-- What a move makes of a numbered work of caller `i`, and of the ring. -/
inductive WorkChange (shape : Shape) (m : Move) (i : Nat) (s : RingState) :
    Option Work → RingState → Work → Prop where
  | same (s' : RingState) (w : Work) : WorkChange shape m i s (some w) s' w
  | begin {job : Job} (h : m = .start i job) : WorkChange shape m i s none s job.begin
  | step (h : m = .step i) (w : Work) :
      WorkChange shape m i s (some w) (w.step shape s).1 (w.step shape s).2
  | spoil (w : Work) : WorkChange shape m i s (some w) s w.spoil

theorem CallerChange.work {shape : Shape} {m : Move} {i k : Nat} {s s' : RingState}
    {c c' : Caller} {w : Work} (h : CallerChange shape m i s c s' c')
    (hw : c'.work? k = some w) : WorkChange shape m i s (c.work? k) s' w := by
  cases h with
  | other => exact hw ▸ .same _ _
  | start h =>
      unfold Caller.start at hw
      split at hw
      · rw [Caller.work?_cons] at hw
        split at hw
        · rename_i hk
          obtain rfl := Option.some.inj hw
          rw [hk, c.work?_length]
          exact .begin h
        · exact hw ▸ .same _ _
      · exact hw ▸ .same _ _
  | step h =>
      obtain ⟨works⟩ := c
      cases works with
      | nil => cases hw
      | cons newest works =>
          simp only [Caller.step, Caller.work?_cons] at hw ⊢
          split at hw
          · rename_i hk
            obtain rfl := Option.some.inj hw
            rw [if_pos hk]
            exact .step h newest
          · rename_i hk
            rw [if_neg hk, hw]
            exact .same _ _
  | spoil =>
      obtain ⟨works⟩ := c
      cases works with
      | nil => cases hw
      | cons newest works =>
          simp only [Caller.spoil, Caller.work?_cons] at hw ⊢
          split at hw
          · rename_i hk
            obtain rfl := Option.some.inj hw
            rw [if_pos hk]
            exact .spoil newest
          · rename_i hk
            rw [if_neg hk, hw]
            exact .same _ _

theorem workChange_act (m : Move) (s : System) {i k : Nat} {w : Work}
    (h : (s.act m).work? i k = some w) :
    WorkChange s.shape m i s.state (s.work? i k) (s.act m).state w := by
  obtain ⟨c', hc', hw⟩ := Option.bind_eq_some_iff.mp h
  obtain ⟨c, hc, hchange⟩ := callerChange_act m s hc'
  rw [work?, hc, Option.bind_some]
  exact hchange.work hw

/-- What a move makes of a numbered call of caller `i`, and of the ring. -/
inductive CallChange (shape : Shape) (m : Move) (i : Nat) (s : RingState) :
    Option Call → RingState → Call → Prop where
  | same (s' : RingState) (c : Call) : CallChange shape m i s (some c) s' c
  | begin {c : Call} (h : m.call? = some c) : CallChange shape m i s none s c
  | step (h : m = .step i) (c : Call) :
      CallChange shape m i s (some c) (c.step shape s).1 (c.step shape s).2
  | spoil (c : Call) : CallChange shape m i s (some c) s c.spoil

theorem callChange_act (m : Move) (s : System) {i k : Nat} {c : Call}
    (h : (s.act m).call? i k = some c) :
    CallChange s.shape m i s.state (s.call? i k) (s.act m).state c := by
  rw [call?_eq, Option.bind_eq_some_iff] at h
  obtain ⟨w, hw, hc⟩ := h
  have hchange := workChange_act m s hw
  rw [call?_eq]
  generalize s.work? i k = old at hchange
  generalize (s.act m).state = state at hchange
  cases hchange with
  | same =>
      rw [Option.bind_some, hc]
      exact .same _ _
  | begin hm => exact .begin (hm ▸ (Job.call?_begin _).symm.trans hc)
  | step hm w =>
      cases w with
      | transfer call => cases hc; exact .step hm call
      | probe => cases hc
  | spoil w =>
      cases w with
      | transfer call => cases hc; exact .spoil call
      | probe => cases hc

/-! ### The last load -/

/-- With this move, work number `k` of caller `i` loads the tail across. -/
def loads (i k : Nat) (m : Move) (s : System) : Bool :=
  match m with
  | .step j => j == i && (s.call? i k).any Call.isLoading
  | _ => false

/-- The ring as it was when work number `k` of caller `i` last loaded the tail across. -/
def lastLoad? (i k : Nat) : List Move → System → Option RingState
  | [], _ => none
  | m :: schedule, s =>
    (lastLoad? i k schedule (s.act m)).or (if s.loads i k m then some s.state else none)

theorem lastLoad?_concat (i k : Nat) (schedule : List Move) (m : Move) (s : System) :
    lastLoad? i k (schedule ++ [m]) s =
      if (s.run schedule).loads i k m then some (s.run schedule).state
      else lastLoad? i k schedule s := by
  induction schedule generalizing s with
  | nil => exact Option.none_or
  | cons m' schedule ih =>
      have hrun : s.run (m' :: schedule) = (s.act m').run schedule := rfl
      rw [List.cons_append, lastLoad?, ih, hrun, lastLoad?]
      split
      · exact Option.some_or
      · rfl

theorem isLoading_of_loads {i k : Nat} {m : Move} {s : System} {c : Call}
    (h : s.call? i k = some c) (hloads : s.loads i k m = true) : c.isLoading = true := by
  cases m with
  | step j =>
      rw [loads, h, Option.any_some, Bool.and_eq_true] at hloads
      exact hloads.2
  | start => cases hloads
  | spoil => cases hloads

/-- A property of a numbered call and its last load, which says nothing of a call that has not
loaded yet or is about to, is kept by a move if the call's own step keeps it and what the move
makes of the ring does not harm it. -/
theorem numbered_act {P : Option RingState → RingState → Call → Prop} {m : Move} {s : System}
    {i k : Nat} {last : Option RingState}
    (hbefore : ∀ last s c, c.phase = .loadHead ∨ c.isLoading = true → P last s c)
    (hother : ∀ c, P last s.state c → P last (s.act m).state c)
    (hstep : ∀ c ∈ s.calls, P last s.state c →
      P (if c.isLoading then some s.state else last) (c.step s.shape s.state).1
        (c.step s.shape s.state).2)
    (hall : ∀ c, s.call? i k = some c → P last s.state c) {c : Call}
    (h : (s.act m).call? i k = some c) :
    P (if s.loads i k m then some s.state else last) (s.act m).state c := by
  have hchange := callChange_act m s h
  have same : ∀ {c : Call}, s.call? i k = some c →
      P (if s.loads i k m then some s.state else last) (s.act m).state c := by
    intro c hc
    split
    · rename_i hloads
      exact hbefore _ _ c (.inr (isLoading_of_loads hc hloads))
    · exact hother c (hall c hc)
  generalize hold : s.call? i k = old at hchange
  generalize (s.act m).state = state at hchange same
  cases hchange with
  | same _ c => exact same hold
  | begin hm => exact hbefore _ _ c (.inl (Move.phase_of_call? hm))
  | step hm c =>
      have hloads : s.loads i k m = c.isLoading := by
        rw [hm, loads, hold, Option.any_some, beq_self_eq_true, Bool.true_and]
      rw [hloads]
      exact hstep c (mem_calls_of_call? hold) (hall c hold)
  | spoil c =>
      rcases c.spoil_cases with heq | heq
      · rw [heq]
        exact same hold
      · exact hbefore _ _ _ (.inl heq)

theorem run_concat (schedule : List Move) (m : Move) (s : System) :
    s.run (schedule ++ [m]) = (s.run schedule).act m :=
  List.foldl_concat ..

end System

end BurstRing
