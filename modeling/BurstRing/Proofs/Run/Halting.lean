import BurstRing.Proofs.Pipeline.Cadence
import BurstRing.Run.Session

/-!
# Sessions end

Once the switch is raised every worker has so many moves left (`Producer.movesLeft`,
`Consumer.movesLeft`), and each of its moves is one less.  A consumer that flushes stops at the next
multiple of its interval; the others stop at once.  So the rounds that `Session.conclude` makes are
enough (`Session.isOver_conclude`), and they are a schedule like any other
(`Session.conclude_eq_follow`).
-/

namespace BurstRing

/-! ### Flush points -/

namespace FlushInterval

/-- Steps from one iteration to the next flush point. -/
def stepsLeft (f : FlushInterval) (iteration : UInt64) : Nat :=
  f.value.toNat - iteration.toNat % f.value.toNat

theorem stepsLeft_le (f : FlushInterval) (iteration : UInt64) :
    f.stepsLeft iteration ≤ f.value.toNat :=
  Nat.sub_le _ _

/-- The step that follows is a flush point or one step closer to it. -/
theorem isDue_or_stepsLeft {f : FlushInterval} (h : f.value ≠ 0) (iteration : UInt64) :
    f.isDue (iteration + 1) = true ∧ 1 ≤ f.stepsLeft iteration ∨
      f.stepsLeft (iteration + 1) + 1 = f.stepsLeft iteration := by
  have hpos : 0 < f.value.toNat := Nat.pos_of_ne_zero (value_eq_zero_iff.not.mp h)
  have hlt := Nat.mod_lt iteration.toNat hpos
  rw [isDue_iff h, stepsLeft, stepsLeft, toNat_add_one_mod h]
  by_cases hdue : iteration.toNat % f.value.toNat + 1 = f.value.toNat
  · rw [hdue, Nat.mod_self]
    exact .inl ⟨rfl, by omega⟩
  · rw [Nat.mod_eq_of_lt (by omega)]
    exact .inr (by omega)

end FlushInterval

/-! ### Moves left -/

/-- Moves of a producer that are left once the switch is raised. -/
def Producer.movesLeft (p : Producer) : Nat :=
  match p.phase with
  | .work => 2
  | .poll => 1
  | .done _ | .starved _ | .blocked _ => 0

theorem Producer.isOver_of_movesLeft {p : Producer} (h : p.movesLeft = 0) : p.isOver = true := by
  obtain ⟨cache, forwarded, refills, phase⟩ := p
  cases phase with
  | poll | work => cases h
  | done | starved | blocked => rfl

theorem Producer.movesLeft_forward (ring : Ring) (p : Producer) :
    (p.forward ring).2.movesLeft ≤ 1 := by
  rw [forward]
  split
  · exact Nat.le_refl 1
  · exact Nat.zero_le 1

theorem Producer.movesLeft_advance {stop : StopSwitch} (hstop : stop.raised = true) (ring : Ring)
    (p : Producer) : (p.advance stop ring).2.2.movesLeft ≤ p.movesLeft - 1 := by
  obtain ⟨cache, forwarded, refills, phase⟩ := p
  cases phase with
  | poll =>
      rw [advance]
      dsimp only
      rw [if_pos hstop]
      exact Nat.le_refl 0
  | work =>
      rw [advance]
      dsimp only
      split
      · exact Nat.zero_le 1
      · exact movesLeft_forward ring _
  | done | starved | blocked => exact Nat.le_refl 0

/-- Moves of a consumer that are left once the switch is raised. -/
def Consumer.movesLeft (c : Consumer) : Nat :=
  match c.loop with
  | .inl ⟨.step, iterations, _⟩ => c.interval.stepsLeft iterations + 2
  | .inl ⟨.flush, _, _⟩ => 2
  | .inl ⟨.control, _, _⟩ | .inl ⟨.check, _, _⟩ => 1
  | .inr _ => 0

theorem Consumer.movesLeft_le (c : Consumer) : c.movesLeft ≤ c.interval.value.toNat + 2 := by
  rw [movesLeft]
  split
  · exact Nat.add_le_add_right (c.interval.stepsLeft_le _) 2
  all_goals omega

theorem Consumer.isOver_of_movesLeft {c : Consumer} (h : c.movesLeft = 0) : c.isOver = true := by
  obtain ⟨interval, drain, ⟨point, iterations, flushes⟩ | how⟩ := c
  · cases point <;> cases h
  · rfl

theorem Consumer.movesLeft_step {interval : FlushInterval} (drain drain' : Drain UInt64)
    (iterations flushes : UInt64) :
    movesLeft ⟨interval, drain', .inl ⟨LoopState.afterStep interval (iterations + 1),
      iterations + 1, flushes⟩⟩ ≤
        movesLeft ⟨interval, drain, .inl ⟨.step, iterations, flushes⟩⟩ - 1 := by
  change _ ≤ interval.stepsLeft iterations + 1
  by_cases hnever : interval.isNever = true
  · rw [LoopState.afterStep, if_pos hnever]
    exact Nat.le_add_left 1 _
  · have hvalue : interval.value ≠ 0 := fun hzero => hnever (beq_iff_eq.mpr hzero)
    have hnext := FlushInterval.isDue_or_stepsLeft hvalue iterations
    rw [LoopState.afterStep, if_neg hnever]
    split
    · -- A flush point: the flush and the control callback are left.
      change 2 ≤ _
      omega
    · rename_i hdue
      change interval.stepsLeft (iterations + 1) + 2 ≤ _
      rw [eq_false hdue, false_and, false_or] at hnext
      omega

theorem Consumer.movesLeft_advance {stop : StopSwitch} (hstop : stop.raised = true) (ring : Ring)
    (c : Consumer) : (c.advance stop ring).2.movesLeft ≤ c.movesLeft - 1 := by
  obtain ⟨raised⟩ := stop
  cases hstop
  obtain ⟨interval, drain, ⟨point, iterations, flushes⟩ | how⟩ := c
  · cases point with
    | step => exact movesLeft_step drain _ iterations flushes
    | flush | control | check => exact Nat.le_refl _
  · exact Nat.le_refl 0

/-! ### Rounds -/

namespace Session

variable {s : Session}

theorem moveProducer_of_none {i : Nat} (hp : s.producers[i]? = none) : s.moveProducer i = s := by
  rw [moveProducer]
  dsimp only
  rw [hp]

theorem moveProducer_of_some {i : Nat} {p : Producer} (hp : s.producers[i]? = some p)
    (hi : i < s.subscriptions.size) :
    ∃ links, s.moveProducer i = { s with
      links, ring := (p.advance s.stop s.ring).2.1,
      producers := s.producers.setIfInBounds i (p.advance s.stop s.ring).2.2 } := by
  rw [moveProducer]
  dsimp only
  rw [hp, Array.getElem?_eq_getElem hi]
  exact ⟨_, rfl⟩

/-- The switch is raised, producer `i` has at most `left i` moves left, and the consumer `rest`. -/
structure Within (left : Nat → Nat) (rest : Nat) (s : Session) : Prop where
  raised : s.stop.raised = true
  subscribed : s.producers.size ≤ s.subscriptions.size
  producers : ∀ (i : Nat) (p : Producer), s.producers[i]? = some p → p.movesLeft ≤ left i
  consumer : s.consumer.movesLeft ≤ rest

variable {left : Nat → Nat} {rest : Nat}

theorem Within.mono (h : s.Within left rest) {left' : Nat → Nat}
    (hle : ∀ (i : Nat) (p : Producer), s.producers[i]? = some p → left i ≤ left' i) :
    s.Within left' rest :=
  { h with producers := fun i p hp => (h.producers i p hp).trans (hle i p hp) }

theorem Within.isOver (h : s.Within (fun _ => 0) 0) : s.isOver = true := by
  refine Bool.and_eq_true_iff.mpr ⟨Array.all_eq_true.mpr fun i hi => ?_,
    Consumer.isOver_of_movesLeft (Nat.le_zero.mp h.consumer)⟩
  exact Producer.isOver_of_movesLeft
    (Nat.le_zero.mp (h.producers i _ (Array.getElem?_eq_getElem hi)))

theorem Within.moveProducer (h : s.Within left rest) (i : Nat) :
    (s.moveProducer i).Within (fun j => if j = i then left j - 1 else left j) rest := by
  rcases hp : s.producers[i]? with - | p
  · rw [moveProducer_of_none hp]
    refine h.mono fun j q hq => ?_
    rw [if_neg fun hji => by rw [hji, hp] at hq; cases hq]
  · obtain ⟨hi, -⟩ := Array.getElem?_eq_some_iff.mp hp
    obtain ⟨links, hmove⟩ := moveProducer_of_some hp (hi.trans_le h.subscribed)
    rw [hmove]
    refine ⟨h.raised, Array.size_setIfInBounds.trans_le h.subscribed, fun j q hq => ?_, h.consumer⟩
    change (s.producers.setIfInBounds i _)[j]? = some q at hq
    rw [Array.getElem?_setIfInBounds, if_pos hi] at hq
    by_cases hij : i = j
    · rw [if_pos hij] at hq
      cases hq
      rw [if_pos hij.symm, ← hij]
      exact (p.movesLeft_advance h.raised s.ring).trans
        (Nat.sub_le_sub_right (h.producers i p hp) 1)
    · rw [if_neg hij] at hq
      rw [if_neg (Ne.symm hij)]
      exact h.producers j q hq

theorem Within.moveProducers (moved : List Nat) :
    ∀ {s : Session} {left : Nat → Nat}, s.Within left rest →
      (moved.foldl (fun s i => s.moveProducer i) s).Within
        (fun j => if j ∈ moved then left j - 1 else left j) rest := by
  induction moved with
  | nil => intro s left h; exact h
  | cons i moved ih =>
      intro s left h
      refine (ih (h.moveProducer i)).mono fun j _ _ => ?_
      by_cases hij : j = i
      · rw [if_pos hij, if_pos (List.mem_cons.mpr (.inl hij))]
        split <;> omega
      · rw [if_neg hij]
        simp only [List.mem_cons, hij, false_or, Nat.le_refl]

/-- Every worker moves once in a round. -/
theorem Within.round {k : Nat} (h : s.Within (fun _ => k + 1) (k + 1)) :
    s.round.Within (fun _ => k) k := by
  -- Where there is no producer the bound may be anything, so zero, and all bounds go down.
  have hbounded : s.Within (fun j => if j < s.producers.size then k + 1 else 0) (k + 1) :=
    h.mono fun i p hp => by rw [if_pos (Array.getElem?_eq_some_iff.mp hp).1]
  have hmoved := hbounded.moveProducers (List.range s.producers.size)
  refine ⟨hmoved.raised, hmoved.subscribed, fun i p hp => (hmoved.producers i p hp).trans ?_,
    (Consumer.movesLeft_advance hmoved.raised _ _).trans (Nat.sub_le_sub_right hmoved.consumer 1)⟩
  simp only [List.mem_range]
  split_ifs <;> omega

theorem Within.finish (fuel : Nat) :
    ∀ {s : Session}, s.Within (fun _ => fuel) fuel → (finish fuel s).isOver = true := by
  induction fuel with
  | zero => intro s h; exact h.isOver
  | succ fuel ih =>
      intro s h
      rw [Session.finish]
      split
      · assumption
      · exact ih h.round

/-- Raising the switch and waiting for the workers ends a session. -/
theorem isOver_conclude (hsub : s.producers.size ≤ s.subscriptions.size) :
    s.conclude.isOver = true := by
  refine Within.finish _ ⟨rfl, hsub, fun i p _ => ?_, ?_⟩
  · have hle : p.movesLeft ≤ 2 := by
      rw [Producer.movesLeft]
      split <;> omega
    omega
  · exact s.consumer.movesLeft_le.trans (by omega)

theorem follow_append (schedule schedule' : List SessionMove) (s : Session) :
    s.follow (schedule ++ schedule') = (s.follow schedule).follow schedule' :=
  List.foldl_append

theorem round_eq_follow (s : Session) :
    s.round = s.follow ((List.range s.producers.size).map .producer ++ [.consumer]) := by
  rw [follow, List.foldl_append, List.foldl_map]
  rfl

theorem finish_eq_follow (fuel : Nat) :
    ∀ s : Session, ∃ schedule, s.finish fuel = s.follow schedule := by
  induction fuel with
  | zero => intro s; exact ⟨[], rfl⟩
  | succ fuel ih =>
      intro s
      rw [Session.finish]
      split
      · exact ⟨[], rfl⟩
      · obtain ⟨schedule, hschedule⟩ := ih s.round
        exact ⟨_, by rw [hschedule, round_eq_follow, ← follow_append]⟩

/-- It is following a schedule that begins with the switch. -/
theorem conclude_eq_follow (s : Session) :
    ∃ schedule, s.conclude = s.follow (.stop :: schedule) :=
  finish_eq_follow _ (s.act .stop)

end Session

end BurstRing
