import BurstRing.Pipeline.Loop
import BurstRing.Proofs.Ring.Slot
import Mathlib.Data.Nat.Find

/-!
# When a loop flushes, asks and ends

What a loop does is told by the number of the step alone.  The step may be a flush point
(`FlushInterval.IsFlushPoint`), and then a flush and a control call follow it; a turn of the loop
(`Engine.turn`) is a step and what follows it, and after it the loop may end (`Engine.verdict`).
The loop itself counts in words and tests low bits, but powers of two divide the size of a word, so
the two never differ, not even when a count wraps (`FlushInterval.isDue_toUInt64`).

To see the order of calls one gives the loop an engine that notes them (`Engine.noted`).  The main
statement is `Engine.ends_on_time`.
-/

namespace BurstRing

/-! ### Flush points -/

namespace FlushInterval

theorem toNat_value (f : FlushInterval) : f.value.toUInt64.toNat = f.value.toNat :=
  UInt32.toNat_toUInt64 _

theorem value_eq_zero_iff {f : FlushInterval} : f.value = 0 ↔ f.value.toNat = 0 :=
  UInt32.toNat_inj.symm

theorem isDue_iff {f : FlushInterval} (h : f.value ≠ 0) (iteration : UInt64) :
    f.isDue iteration = true ↔ iteration.toNat % f.value.toNat = 0 := by
  have hpow : isPowerOfTwo f.value.toUInt64.toNat = true :=
    f.toNat_value ▸ f.valid.resolve_left h
  rw [isDue, Bool.and_eq_true_iff, bne_iff_ne, beq_iff_eq, ← UInt64.toNat_inj,
    toNat_and_sub_one hpow, f.toNat_value]
  exact and_iff_right h

/-- A word wraps at a flush point. -/
theorem value_dvd {f : FlushInterval} (h : f.value ≠ 0) : f.value.toNat ∣ 2 ^ 64 := by
  obtain ⟨k, hk, hpow⟩ := eq_pow_of_isPowerOfTwo (f.valid.resolve_left h)
    (f.value.toNat_lt.trans (by decide))
  exact hpow ▸ Nat.pow_dvd_pow 2 hk.le

theorem toNat_add_one_mod {f : FlushInterval} (h : f.value ≠ 0) (iteration : UInt64) :
    (iteration + 1).toNat % f.value.toNat =
      (iteration.toNat % f.value.toNat + 1) % f.value.toNat := by
  rw [UInt64.toNat_add, UInt64.toNat_one, Nat.mod_mod_of_dvd _ (value_dvd h), Nat.mod_add_mod]

/-- A flush and a control call follow the step of number `n`. -/
def IsFlushPoint (f : FlushInterval) (n : Nat) : Prop := f.value ≠ 0 ∧ f.value.toNat ∣ n

instance (f : FlushInterval) (n : Nat) : Decidable (f.IsFlushPoint n) :=
  inferInstanceAs (Decidable (_ ∧ _))

theorem isDue_iff_isFlushPoint (f : FlushInterval) (iteration : UInt64) :
    f.isDue iteration = true ↔ f.IsFlushPoint iteration.toNat := by
  by_cases h : f.value = 0
  · simp [isDue, IsFlushPoint, h]
  · rw [isDue_iff h, IsFlushPoint, Nat.dvd_iff_mod_eq_zero, and_iff_right h]

theorem isDue_toUInt64 (f : FlushInterval) (n : Nat) :
    f.isDue n.toUInt64 = true ↔ f.IsFlushPoint n := by
  by_cases h : f.value = 0
  · simp [isDue, IsFlushPoint, h]
  · rw [isDue_iff h, IsFlushPoint, Nat.dvd_iff_mod_eq_zero, and_iff_right h, Nat.toUInt64_eq,
      UInt64.toNat_ofNat', Nat.mod_mod_of_dvd _ (value_dvd h)]

theorem isNever_iff {f : FlushInterval} : f.isNever = true ↔ f.value = 0 := beq_iff_eq

/-- A flush point is the end of one more interval. -/
theorem add_one_div {f : FlushInterval} {n : Nat} :
    (n + 1) / f.value.toNat =
      if f.IsFlushPoint (n + 1) then n / f.value.toNat + 1 else n / f.value.toNat := by
  by_cases h : f.value = 0
  · simp [IsFlushPoint, h]
  · rw [Nat.succ_div]
    simp only [IsFlushPoint, and_iff_right h]
    split <;> rfl

end FlushInterval

namespace Engine

variable {σ : Type} (e : Engine σ) (f : FlushInterval)

/-! ### Moves -/

theorem runFrom_step (fuel : Nat) (iterations flushes : UInt64) (x : σ) :
    e.runFrom f (fuel + 1) ⟨.step, iterations, flushes⟩ x =
      e.runFrom f fuel ⟨LoopState.afterStep f (iterations + 1), iterations + 1, flushes⟩
        (e.runStep x) := rfl

theorem runFrom_flush (fuel : Nat) (iterations flushes : UInt64) (x : σ) :
    e.runFrom f (fuel + 1) ⟨.flush, iterations, flushes⟩ x =
      e.runFrom f fuel ⟨.control, iterations, flushes + 1⟩ (e.flush x) := rfl

theorem runFrom_control (fuel : Nat) (iterations flushes : UInt64) (x : σ) :
    e.runFrom f (fuel + 1) ⟨.control, iterations, flushes⟩ x =
      match (e.control x).1 with
      | .proceed => e.runFrom f fuel ⟨.check, iterations, flushes⟩ (e.control x).2
      | .stop => (some (.ok ⟨iterations, flushes, .control⟩), (e.control x).2)
      | .fail code => (some (.error (.control code iterations)), (e.control x).2) := by
  simp only [runFrom, advance]
  cases (e.control x).1 <;> rfl

theorem runFrom_check (fuel : Nat) (iterations flushes : UInt64) (x : σ) :
    e.runFrom f (fuel + 1) ⟨.check, iterations, flushes⟩ x =
      if e.stopRequested x then (some (.ok ⟨iterations, flushes, .stopFlag⟩), x)
      else e.runFrom f fuel ⟨.step, iterations, flushes⟩ x := by
  simp only [runFrom, advance]
  cases e.stopRequested x <;> rfl

/-- A loop that has ended has ended for any number of moves. -/
theorem runFrom_add {fuel : Nat} (extra : Nat) :
    ∀ {s : LoopState} {x y : σ} {how : LoopEnd}, e.runFrom f fuel s x = (some how, y) →
      e.runFrom f (fuel + extra) s x = (some how, y) := by
  induction fuel with
  | zero => intro s x y how h; cases h
  | succ fuel ih =>
      intro s x y how h
      rw [Nat.add_right_comm, runFrom]
      rw [runFrom] at h
      split at h
      · exact ih h
      · exact h

/-! ### Turns -/

/-- What the turn of number `n` makes of the state. -/
def turn (n : Nat) (x : σ) : σ :=
  if f.IsFlushPoint n then (e.control (e.flush (e.runStep x))).2 else e.runStep x

/-- What a loop that ends well with the turn of number `n` reports. -/
def report (n : Nat) (exit : StopReason) : LoopReport :=
  ⟨n.toUInt64, (n / f.value.toNat).toUInt64, exit⟩

/-- How the loop ends with the turn of number `n`, if it does.  What the control callback says comes
before the stop flag. -/
def verdict (n : Nat) (x : σ) : Option LoopEnd :=
  if f.IsFlushPoint n then
    match (e.control (e.flush (e.runStep x))).1 with
    | .stop => some (.ok (report f n .control))
    | .fail code => some (.error (.control code n.toUInt64))
    | .proceed => if e.stopRequested (e.turn f n x) then some (.ok (report f n .stopFlag)) else none
  else if f.value = 0 ∧ e.stopRequested (e.turn f n x) then some (.ok (report f n .stopFlag))
  else none

theorem toUInt64_add_one (n : Nat) : n.toUInt64 + 1 = (n + 1).toUInt64 :=
  (UInt64.ofNat_add n 1).symm

/-- A loop that has made `n` turns. -/
def afterTurns (n : Nat) : LoopState := ⟨.step, n.toUInt64, (n / f.value.toNat).toUInt64⟩

theorem afterStep_afterTurns (n : Nat) :
    LoopState.afterStep f (n.toUInt64 + 1) =
      if f.IsFlushPoint (n + 1) then .flush else if f.value = 0 then .check else .step := by
  rw [LoopState.afterStep, toUInt64_add_one]
  simp only [FlushInterval.isNever_iff, FlushInterval.isDue_toUInt64]
  by_cases hnever : f.value = 0
  · simp [hnever, FlushInterval.IsFlushPoint]
  · simp [hnever]

/-- At a flush point the loop makes three more moves or, if control ends it, two. -/
theorem runFrom_flushPoint {n : Nat} (hflush : f.IsFlushPoint (n + 1)) (fuel : Nat) (x : σ) :
    e.runFrom f (fuel + 3 + 1) (afterTurns f n) x =
      match e.verdict f (n + 1) x with
      | some how => (some how, e.turn f (n + 1) x)
      | none => e.runFrom f fuel (afterTurns f (n + 1)) (e.turn f (n + 1) x) := by
  have hcount : (n / f.value.toNat).toUInt64 + 1 = ((n + 1) / f.value.toNat).toUInt64 := by
    rw [FlushInterval.add_one_div, if_pos hflush, toUInt64_add_one]
  rw [afterTurns, runFrom_step, afterStep_afterTurns, if_pos hflush, runFrom_flush,
    runFrom_control, verdict, if_pos hflush, turn, if_pos hflush, toUInt64_add_one, hcount]
  cases (e.control (e.flush (e.runStep x))).1 with
  | proceed =>
      dsimp only
      rw [runFrom_check]
      split <;> rfl
  | stop => rfl
  | fail code => rfl

theorem runFrom_turn (n : Nat) (x : σ) : ∃ moves, ∀ fuel,
    e.runFrom f (fuel + moves + 1) (afterTurns f n) x =
      match e.verdict f (n + 1) x with
      | some how => (some how, e.turn f (n + 1) x)
      | none => e.runFrom f fuel (afterTurns f (n + 1)) (e.turn f (n + 1) x) := by
  by_cases hflush : f.IsFlushPoint (n + 1)
  · exact ⟨3, fun fuel => e.runFrom_flushPoint f hflush fuel x⟩
  · have hcount : n / f.value.toNat = (n + 1) / f.value.toNat := by
      rw [FlushInterval.add_one_div, if_neg hflush]
    by_cases hnever : f.value = 0
    · refine ⟨1, fun fuel => ?_⟩
      rw [afterTurns, runFrom_step, afterStep_afterTurns, if_neg hflush, if_pos hnever,
        runFrom_check, verdict, if_neg hflush, turn, if_neg hflush, toUInt64_add_one, hcount]
      cases e.stopRequested (e.runStep x) <;> simp [hnever, report, afterTurns]
    · refine ⟨0, fun fuel => ?_⟩
      rw [afterTurns, Nat.add_zero, runFrom_step, afterStep_afterTurns, if_neg hflush,
        if_neg hnever, verdict, if_neg hflush, if_neg fun h => hnever h.1, turn, if_neg hflush,
        toUInt64_add_one, hcount]
      rfl

/-- The state after `n` turns. -/
def after : Nat → σ → σ
  | 0, x => x
  | n + 1, x => e.turn f (n + 1) (after n x)

/-- None of the first `n` turns ends the loop. -/
def Undecided (n : Nat) (x : σ) : Prop :=
  ∀ i < n, e.verdict f (i + 1) (e.after f i x) = none

variable {e f} {x : σ}

theorem Undecided.run {n : Nat} (h : e.Undecided f n x) : ∃ moves, ∀ fuel,
    e.run f (fuel + (moves + n)) x = e.runFrom f fuel (afterTurns f n) (e.after f n x) := by
  induction n with
  | zero => exact ⟨0, fun fuel => by simp [Engine.run, afterTurns, after, LoopState.initial]⟩
  | succ n ih =>
      obtain ⟨moves, hrun⟩ := ih fun i hi => h i (Nat.lt_succ_of_lt hi)
      obtain ⟨more, hturn⟩ := e.runFrom_turn f n (e.after f n x)
      refine ⟨moves + more, fun fuel => ?_⟩
      rw [show fuel + (moves + more + (n + 1)) = fuel + more + 1 + (moves + n) by omega, hrun, hturn,
        h n (Nat.lt_succ_self n)]
      rfl

/-- The first turn that calls for an end is the last. -/
theorem Undecided.run_verdict {n : Nat} (h : e.Undecided f n x) {how : LoopEnd}
    (hhow : e.verdict f (n + 1) (e.after f n x) = some how) :
    ∃ enough, ∀ fuel, e.run f (fuel + enough) x = (some how, e.after f (n + 1) x) := by
  obtain ⟨moves, hrun⟩ := h.run
  obtain ⟨more, hturn⟩ := e.runFrom_turn f n (e.after f n x)
  refine ⟨more + 1 + (moves + n), fun fuel => ?_⟩
  rw [← Nat.add_assoc, hrun, ← Nat.add_assoc, hturn, hhow]
  rfl

variable (e f x) in
/-- Either no turn ends the loop, or one does first. -/
theorem undecided_or : (∀ n, e.Undecided f n x) ∨
    ∃ n how, e.Undecided f n x ∧ e.verdict f (n + 1) (e.after f n x) = some how := by
  by_cases h : ∃ n, e.verdict f (n + 1) (e.after f n x) ≠ none
  · obtain ⟨how, hhow⟩ := Option.ne_none_iff_exists'.mp (Nat.find_spec h)
    exact .inr ⟨Nat.find h, how, fun i hi => not_not.mp (Nat.find_min h hi), hhow⟩
  · exact .inl fun n i _ => not_not.mp fun hi => h ⟨i, hi⟩

/-- Nothing else ends the loop. -/
theorem run_eq_some {fuel : Nat} {how : LoopEnd} {y : σ} (h : e.run f fuel x = (some how, y)) :
    ∃ n, e.Undecided f n x ∧ e.verdict f (n + 1) (e.after f n x) = some how ∧
      y = e.after f (n + 1) x := by
  rcases e.undecided_or f x with hall | ⟨n, how', hfirst, hverdict⟩
  · -- After as many turns as there were moves there has not been an end.
    obtain ⟨moves, hrun⟩ := (hall fuel).run
    have hend := e.runFrom_add f moves h
    have hnone := hrun 0
    rw [Nat.zero_add, Nat.add_comm] at hnone
    cases hend.symm.trans hnone
  · obtain ⟨enough, hrun⟩ := hfirst.run_verdict hverdict
    have heq := (hrun fuel).symm.trans (e.runFrom_add f enough h)
    cases heq
    exact ⟨n, hfirst, hverdict, rfl⟩

end Engine

/-! ### Calls -/

/-- A call that a loop makes; a control call with its answer. -/
inductive LoopCall where
  | step
  | flush
  | control (signal : ControlSignal)
  deriving DecidableEq, Repr

namespace Engine

variable {σ : Type} (e : Engine σ) (f : FlushInterval)

/-- The engine that notes every call, and otherwise does the same. -/
def noted : Engine (σ × List LoopCall) where
  runStep := fun (x, calls) => (e.runStep x, calls ++ [.step])
  flush := fun (x, calls) => (e.flush x, calls ++ [.flush])
  control := fun (x, calls) => ((e.control x).1, (e.control x).2, calls ++ [.control (e.control x).1])
  stopRequested := fun (x, _) => e.stopRequested x

/-- A whole loop of at most `fuel` moves, and the calls it makes. -/
def runNoted (fuel : Nat) (x : σ) : Option LoopEnd × σ × List LoopCall :=
  e.noted.run f fuel (x, [])

/-- Calls of the turn of number `n`: a flush and a control call follow the step if it is a flush
point. -/
def callsOf (n : Nat) (x : σ) : List LoopCall :=
  if f.IsFlushPoint n then [.step, .flush, .control (e.control (e.flush (e.runStep x))).1]
  else [.step]

/-- Calls of the first `n` turns. -/
def calls : Nat → σ → List LoopCall
  | 0, _ => []
  | n + 1, x => calls n x ++ e.callsOf f (n + 1) (e.after f n x)

theorem noted_turn (n : Nat) (x : σ) (made : List LoopCall) :
    e.noted.turn f n (x, made) = (e.turn f n x, made ++ e.callsOf f n x) := by
  by_cases hflush : f.IsFlushPoint n
  · simp [turn, callsOf, hflush, noted]
  · simp [turn, callsOf, hflush, noted]

theorem noted_after (n : Nat) (x : σ) (made : List LoopCall) :
    e.noted.after f n (x, made) = (e.after f n x, made ++ e.calls f n x) := by
  induction n with
  | zero => simp [after, calls]
  | succ n ih => rw [after, ih, noted_turn, after, calls, List.append_assoc]

theorem noted_verdict (n : Nat) (x : σ) (made : List LoopCall) :
    e.noted.verdict f n (x, made) = e.verdict f n x := by
  simp only [verdict, noted_turn]
  rfl

theorem noted_undecided {n : Nat} {x : σ} {made : List LoopCall} :
    e.noted.Undecided f n (x, made) ↔ e.Undecided f n x := by
  simp only [Undecided, noted_after, noted_verdict]

/-- A move is made as ever, and may add to the notes. -/
theorem noted_advance (s : LoopState) (x : σ) (made : List LoopCall) : ∃ more,
    e.noted.advance f s (x, made) =
      ((e.advance f s x).1, (e.advance f s x).2, made ++ more) := by
  obtain ⟨point, iterations, flushes⟩ := s
  cases point with
  | step => exact ⟨[.step], rfl⟩
  | flush => exact ⟨[.flush], rfl⟩
  | control => exact ⟨[.control (e.control x).1], rfl⟩
  | check =>
      refine ⟨[], ?_⟩
      have hraised : e.noted.stopRequested (x, made) = e.stopRequested x := rfl
      simp only [advance, hraised, List.append_nil]
      cases e.stopRequested x <;> rfl

theorem runFrom_noted (fuel : Nat) : ∀ (s : LoopState) (x : σ) (made : List LoopCall),
    e.runFrom f fuel s x = ((e.noted.runFrom f fuel s (x, made)).1,
      (e.noted.runFrom f fuel s (x, made)).2.1) := by
  induction fuel with
  | zero => intro s x made; rfl
  | succ fuel ih =>
      intro s x made
      obtain ⟨more, hmove⟩ := e.noted_advance f s x made
      rw [runFrom, runFrom, hmove]
      rcases e.advance f s x with ⟨s | how, y⟩
      · exact ih s y _
      · rfl

theorem prefix_runFrom (fuel : Nat) : ∀ (s : LoopState) (x : σ) (made : List LoopCall),
    made <+: (e.noted.runFrom f fuel s (x, made)).2.2 := by
  induction fuel with
  | zero => intro s x made; exact List.prefix_rfl
  | succ fuel ih =>
      intro s x made
      obtain ⟨more, hmove⟩ := e.noted_advance f s x made
      rw [runFrom, hmove]
      rcases e.advance f s x with ⟨s | how, y⟩
      · exact (List.prefix_append made more).trans (ih s y _)
      · exact List.prefix_append made more

/-- More moves only add calls. -/
theorem prefix_runFrom_add (fuel extra : Nat) : ∀ (s : LoopState) (x : σ) (made : List LoopCall),
    (e.noted.runFrom f fuel s (x, made)).2.2 <+:
      (e.noted.runFrom f (fuel + extra) s (x, made)).2.2 := by
  induction fuel with
  | zero => intro s x made; exact e.prefix_runFrom f (0 + extra) s x made
  | succ fuel ih =>
      intro s x made
      obtain ⟨more, hmove⟩ := e.noted_advance f s x made
      rw [Nat.add_right_comm, runFrom, runFrom, hmove]
      rcases e.advance f s x with ⟨s | how, y⟩
      · exact ih s y _
      · exact List.prefix_rfl

theorem runNoted_prefix_add (fuel extra : Nat) (x : σ) :
    (e.runNoted f fuel x).2.2 <+: (e.runNoted f (fuel + extra) x).2.2 :=
  e.prefix_runFrom_add f fuel extra .initial x []

variable {e f} {x : σ}

theorem Undecided.runNoted {n : Nat} (h : e.Undecided f n x) :
    ∃ enough, n ≤ enough ∧ e.runNoted f enough x = (none, e.after f n x, e.calls f n x) := by
  have hnoted : e.noted.Undecided f n (x, []) := (e.noted_undecided f).mpr h
  obtain ⟨moves, hrun⟩ := hnoted.run
  refine ⟨moves + n, Nat.le_add_left n moves, ?_⟩
  have hnow := hrun 0
  rw [Nat.zero_add, noted_after] at hnow
  exact hnow

theorem Undecided.runNoted_verdict {n : Nat} (h : e.Undecided f n x) {how : LoopEnd}
    (hhow : e.verdict f (n + 1) (e.after f n x) = some how) : ∃ enough, ∀ fuel,
      e.runNoted f (fuel + enough) x = (some how, e.after f (n + 1) x, e.calls f (n + 1) x) := by
  have hnoted : e.noted.Undecided f n (x, []) := (e.noted_undecided f).mpr h
  have hverdict : e.noted.verdict f (n + 1) (e.noted.after f n (x, [])) = some how := by
    rw [noted_after, noted_verdict, hhow]
  obtain ⟨enough, hrun⟩ := hnoted.run_verdict hverdict
  refine ⟨enough, fun fuel => ?_⟩
  rw [Engine.runNoted, hrun, noted_after]
  rfl

theorem runNoted_eq_some {fuel : Nat} {how : LoopEnd} {y : σ} {made : List LoopCall}
    (h : e.runNoted f fuel x = (some how, y, made)) :
    ∃ n, e.Undecided f n x ∧ e.verdict f (n + 1) (e.after f n x) = some how ∧
      y = e.after f (n + 1) x ∧ made = e.calls f (n + 1) x := by
  obtain ⟨n, hfirst, hverdict, heq⟩ := run_eq_some h
  rw [noted_after] at hverdict heq
  rw [noted_verdict] at hverdict
  cases heq
  exact ⟨n, (e.noted_undecided f).mp hfirst, hverdict, rfl, rfl⟩

/-- No call is made but those of the turns that come before the end. -/
theorem runNoted_prefix (fuel : Nat) : ∃ n, e.Undecided f n x ∧
    (e.runNoted f fuel x).2.2 <+: e.calls f (n + 1) x := by
  rcases e.undecided_or f x with hall | ⟨n, how, hfirst, hverdict⟩
  · obtain ⟨enough, hle, hrun⟩ := (hall (fuel + 1)).runNoted
    have hmore := e.runNoted_prefix_add f fuel (enough - fuel) x
    rw [Nat.add_sub_cancel' (Nat.le_of_succ_le hle), hrun] at hmore
    exact ⟨fuel, hall fuel, hmore⟩
  · obtain ⟨enough, hrun⟩ := hfirst.runNoted_verdict hverdict
    have hmore := e.runNoted_prefix_add f fuel enough x
    rw [hrun] at hmore
    exact ⟨n, hfirst, hmore⟩

/-! ### Counts -/

theorem count_step_calls (n : Nat) : (e.calls f n x).count .step = n := by
  induction n with
  | zero => rfl
  | succ n ih =>
      rw [calls, List.count_append, ih, callsOf]
      split <;> rfl

theorem count_flush_calls (n : Nat) : (e.calls f n x).count .flush = n / f.value.toNat := by
  induction n with
  | zero => exact (Nat.zero_div _).symm
  | succ n ih =>
      rw [calls, List.count_append, ih, callsOf, FlushInterval.add_one_div]
      split <;> rfl

theorem calls_of_never (hnever : f.value = 0) (n : Nat) :
    e.calls f n x = List.replicate n .step := by
  induction n with
  | zero => rfl
  | succ n ih =>
      simp [calls, ih, callsOf, FlushInterval.IsFlushPoint, hnever, List.replicate_succ']

theorem verdict_eq_ok {n : Nat} {r : LoopReport} (h : e.verdict f n x = some (.ok r)) :
    (f.value = 0 ∨ f.IsFlushPoint n) ∧ ∃ exit, r = report f n exit := by
  rw [verdict] at h
  split at h
  · rename_i hflush
    refine ⟨.inr hflush, ?_⟩
    split at h
    · cases h
      exact ⟨_, rfl⟩
    · cases h
    · split at h
      · cases h
        exact ⟨_, rfl⟩
      · cases h
  · split at h
    · rename_i hraised
      cases h
      exact ⟨.inl hraised.1, _, rfl⟩
    · cases h

theorem verdict_of_never (hnever : f.value = 0) {n : Nat} {how : LoopEnd}
    (h : e.verdict f n x = some how) : how = .ok ⟨n.toUInt64, 0, .stopFlag⟩ := by
  have hflush : ¬ f.IsFlushPoint n := fun hflush => hflush.1 hnever
  rw [verdict, if_neg hflush] at h
  split at h
  · cases h
    simp [report, hnever]
  · cases h

/-! ### The whole loop -/

/-- A loop on `x` does everything in time. -/
structure OnTime (e : Engine σ) (f : FlushInterval) (x : σ) : Prop where
  /-- The low bits tell the multiples of the interval. -/
  due : ∀ iteration : UInt64, f.isDue iteration = true ↔ f.IsFlushPoint iteration.toNat
  /-- To note calls changes nothing. -/
  unnoted : ∀ fuel, e.run f fuel x = ((e.runNoted f fuel x).1, (e.runNoted f fuel x).2.1)
  /-- Turn follows turn while none ends the loop. -/
  goes_on : ∀ n, e.Undecided f n x →
    ∃ fuel, e.runNoted f fuel x = (none, e.after f n x, e.calls f n x)
  /-- The first that does is the last. -/
  ends : ∀ n how, e.Undecided f n x → e.verdict f (n + 1) (e.after f n x) = some how →
    ∃ enough, ∀ fuel,
      e.runNoted f (fuel + enough) x = (some how, e.after f (n + 1) x, e.calls f (n + 1) x)
  /-- There is no other end. -/
  ended : ∀ fuel how y made, e.runNoted f fuel x = (some how, y, made) →
    ∃ n, e.Undecided f n x ∧ e.verdict f (n + 1) (e.after f n x) = some how ∧
      y = e.after f (n + 1) x ∧ made = e.calls f (n + 1) x
  /-- At any time the calls made are the first of those that are to be made. -/
  underway : ∀ fuel, ∃ n, e.Undecided f n x ∧ (e.runNoted f fuel x).2.2 <+: e.calls f (n + 1) x
  /-- What is reported are the numbers of calls; they are words, and right as far as words go. -/
  counted : ∀ fuel r y made, e.runNoted f fuel x = (some (.ok r), y, made) →
    r.iterations = (made.count .step).toUInt64 ∧ r.flushes = (made.count .flush).toUInt64 ∧
      (f.value ≠ 0 → made.count .step = f.value.toNat * made.count .flush) ∧
      (f.value ≠ 0 → made.count .step < UInt64.size →
        r.iterations.toNat = f.value.toNat * r.flushes.toNat)
  /-- Without an interval there are only steps, and only the stop flag ends the loop. -/
  never : f.value = 0 → ∀ fuel how y made, e.runNoted f fuel x = (some how, y, made) →
    ∃ n, how = .ok ⟨n.toUInt64, 0, .stopFlag⟩ ∧ made = List.replicate n .step

/-- **Cadence.**  Every loop flushes, asks and ends when it should, and at no other time. -/
theorem ends_on_time (e : Engine σ) (f : FlushInterval) (x : σ) : e.OnTime f x where
  due := f.isDue_iff_isFlushPoint
  unnoted := fun fuel => e.runFrom_noted f fuel .initial x []
  goes_on := by
    intro n hfirst
    obtain ⟨enough, -, hrun⟩ := hfirst.runNoted
    exact ⟨enough, hrun⟩
  ends := fun n how hfirst hverdict => hfirst.runNoted_verdict hverdict
  ended := fun fuel how y made hrun => runNoted_eq_some hrun
  underway := fun fuel => runNoted_prefix fuel
  counted := by
    intro fuel r y made hrun
    obtain ⟨n, -, hverdict, -, rfl⟩ := runNoted_eq_some hrun
    obtain ⟨hpoint, exit, rfl⟩ := verdict_eq_ok hverdict
    rw [count_step_calls, count_flush_calls]
    have hmul : f.value ≠ 0 → n + 1 = f.value.toNat * ((n + 1) / f.value.toNat) := fun hvalue =>
      (Nat.mul_div_cancel' (hpoint.resolve_left hvalue).2).symm
    refine ⟨rfl, rfl, hmul, fun hvalue hlt => ?_⟩
    have hflushes : (n + 1) / f.value.toNat < UInt64.size :=
      (Nat.div_le_self _ _).trans_lt hlt
    rw [report, Nat.toUInt64_eq, Nat.toUInt64_eq, UInt64.toNat_ofNat_of_lt' hlt,
      UInt64.toNat_ofNat_of_lt' hflushes]
    exact hmul hvalue
  never := by
    intro hnever fuel how y made hrun
    obtain ⟨n, -, hverdict, -, rfl⟩ := runNoted_eq_some hrun
    exact ⟨n + 1, verdict_of_never hnever hverdict, calls_of_never hnever (n + 1)⟩

/-- A flag that is raised in the third step is seen after the fourth, where the next flush is. -/
example :
    let e : Engine Nat := ⟨fun n => n + 1, id, fun n => (.proceed, n), fun n => decide (3 ≤ n)⟩
    (e.runNoted ⟨2, by decide⟩ 20 0).2 = (4,
      [.step, .step, .flush, .control .proceed, .step, .step, .flush, .control .proceed]) := by
  decide

end Engine

end BurstRing
