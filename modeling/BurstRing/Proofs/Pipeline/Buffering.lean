import BurstRing.Proofs.Pipeline.Cadence
import BurstRing.Proofs.Pipeline.Relay

/-!
# What a drain keeps back

A drain of bursts of `b` keeps fewer than `b` handles back from one call to the next, and a step
brings at most `b` more, so there is always room for them where `2 * b` have been reserved.  A step
hands on everything or nothing, and so does a flush (`Drain.Buffered.sink_gather`,
`Drain.Buffered.sink_flush`).

A step sees the ring as others have left it, and they may have done anything to it.  The sink does
not matter either: whatever it makes of its batches, it gets those that a sink gets that keeps them
(`Drain.handedTo`).

An engine `Drives` a drain if its steps and flushes are the drain's and its control callback leaves
the drain alone, or only flushes it.  A loop with a flush interval asks and ends right after a flush,
and so nothing is pending then.  The main statement is `DrainedRing.keeps_back`.
-/

namespace BurstRing

theorem Ring.size_dequeue (r : Ring) (out : Array UInt64) (t : Transfer) :
    (r.dequeue out t).2.1.size = out.size := by
  rw [dequeue, getHandles]
  split
  · rfl
  · simp [Handle.unpack]

namespace Drain

/-! ### Steps -/

section

variable {τ : Type}

/-- Handles that a step takes out of `ring`. -/
def taken (ring : Ring) (d : Drain τ) : Array UInt64 :=
  match ring.dequeue (Array.replicate d.burst 0) .burst with
  | (.ok n, out, _) => out.extract 0 n
  | (.error _, _, _) => #[]

/-- The drain in the middle of a step, when it has taken `handles` and handed nothing on yet. -/
def fill (handles : Array UInt64) (d : Drain τ) : Drain τ :=
  { d with pending := d.pending ++ handles, drained := d.drained + handles.size.toUInt64 }

theorem gather_eq (accept : Sink τ) (handles : Array UInt64) (d : Drain τ) :
    d.gather accept handles =
      if d.burst ≤ (d.fill handles).pending.size then (d.fill handles).flush accept
      else d.fill handles := rfl

theorem gather_empty (accept : Sink τ) {d : Drain τ} (hlt : d.pending.size < d.burst) :
    d.gather accept #[] = d := by
  have hfill : d.fill #[] = d := by
    rw [fill, Array.append_empty]
    simp
  rw [gather_eq, hfill, if_neg (Nat.not_le.mpr hlt)]

/-- A step files what it takes, also if that is nothing. -/
theorem step_eq (accept : Sink τ) (ring : Ring) {d : Drain τ} (hlt : d.pending.size < d.burst) :
    (d.step accept ring).2 = d.gather accept (d.taken ring) := by
  rw [step, taken]
  rcases ring.dequeue (Array.replicate d.burst 0) .burst with ⟨fault | n, out, ring'⟩
  · exact (gather_empty accept hlt).symm
  · dsimp only
    split
    · rename_i hzero
      rw [hzero, Array.extract_zero, gather_empty accept hlt]
    · rfl

theorem size_taken_le (ring : Ring) (d : Drain τ) : (d.taken ring).size ≤ d.burst := by
  have hsize := ring.size_dequeue (Array.replicate d.burst 0) .burst
  rw [Array.size_replicate] at hsize
  rw [taken]
  generalize ring.dequeue (Array.replicate d.burst 0) .burst = answer at hsize
  obtain ⟨fault | n, out, ring'⟩ := answer
  · exact Nat.zero_le _
  · dsimp only at hsize ⊢
    rw [Array.size_extract, hsize]
    omega

/-- From a ring of handles at rest a step takes the oldest ones. -/
theorem taken_ok {ring : Ring} {handles : List UInt64} (hring : ring.Has handles) {d : Drain τ}
    (hpos : d.burst ≠ 0) (hlt : d.burst < UInt64.size) :
    (d.taken ring).toList = handles.take d.burst := by
  obtain ⟨ring', hdequeue, -⟩ := hring.dequeue hpos hlt
  rw [taken, hdequeue]
  exact toList_extract_overwrite _ _

end

/-! ### Any sink -/

section

variable {τ : Type} (accept : Sink τ) (sink : τ)

/-- The drain with another sink, which began with `sink` and has received the same batches. -/
def handedTo (d : Drain (Array (Array UInt64))) : Drain τ :=
  { d with sink := d.sink.foldl (fun sink batch => accept batch sink) sink }

theorem handedTo_flush (d : Drain (Array (Array UInt64))) :
    (d.flush keepBatches).handedTo accept sink = (d.handedTo accept sink).flush accept := by
  by_cases hempty : d.pending.isEmpty = true
  · simp [flush, handedTo, hempty]
  · simp [flush, handedTo, hempty, keepBatches]

theorem handedTo_gather (handles : Array UInt64) (d : Drain (Array (Array UInt64))) :
    (d.gather keepBatches handles).handedTo accept sink =
      (d.handedTo accept sink).gather accept handles := by
  rw [gather_eq, gather_eq, apply_ite (handedTo accept sink), handedTo_flush]
  rfl

theorem handedTo_step (ring : Ring) (d : Drain (Array (Array UInt64))) :
    (d.handedTo accept sink).step accept ring =
      ((d.step keepBatches ring).1, (d.step keepBatches ring).2.handedTo accept sink) := by
  have hburst : (d.handedTo accept sink).burst = d.burst := rfl
  rw [step, step, hburst]
  rcases ring.dequeue (Array.replicate d.burst 0) .burst with ⟨fault | n, out, ring'⟩
  · rfl
  · dsimp only
    rw [apply_ite (handedTo accept sink), handedTo_gather]

end

/-! ### What is pending -/

/-- A drain of bursts of `b` that has taken `handles`: it has handed on a first part of them, in
batches, and keeps the others back, which are fewer than a burst. -/
structure Buffered (b : Nat) (handles : List UInt64) (d : Drain (Array (Array UInt64))) : Prop where
  burst : d.burst = b
  pending_lt : d.pending.size < b
  nonempty : ∀ batch ∈ d.sink, 0 < batch.size
  drained : d.drained = handles.length.toUInt64
  order : d.delivered ++ d.pending.toList = handles

theorem flush_of_pending {τ : Type} (accept : Sink τ) {d : Drain τ} (hsome : 0 < d.pending.size) :
    d.flush accept = { d with pending := #[], sink := accept d.pending d.sink } := by
  rw [flush, if_neg fun hempty => hsome.ne' (Array.isEmpty_iff_size_eq_zero.mp hempty)]

theorem drained_flush {τ : Type} (accept : Sink τ) (d : Drain τ) :
    (d.flush accept).drained = d.drained := by
  rw [flush]
  split <;> rfl

namespace Buffered

variable {b : Nat} {handles : List UInt64} {d : Drain (Array (Array UInt64))}

theorem create {ring : Ring} {burst : Nat} (hdrain : Drain.create ring burst #[] = .ok d) :
    d.Buffered (max burst 1) [] := by
  obtain ⟨-, rfl⟩ := create_eq_ok hdrain
  exact ⟨rfl, Nat.lt_of_lt_of_le Nat.one_pos (Nat.le_max_right _ 1),
    fun batch hmem => (Array.not_mem_empty batch hmem).elim, rfl, rfl⟩

theorem pos (h : d.Buffered b handles) : 0 < b := Nat.zero_lt_of_lt h.pending_lt

theorem drained_eq (h : d.Buffered b handles) :
    d.drained = (d.delivered.length + d.pending.size).toUInt64 := by
  rw [← Array.length_toList, ← List.length_append, h.order, h.drained]

theorem delivered_eq (h : d.Buffered b handles) (hnone : d.pending = #[]) :
    d.delivered = handles := by
  rw [← h.order, hnone, Array.toList_empty, List.append_nil]

/-- A flush hands on one batch or none. -/
theorem sink_flush (h : d.Buffered b handles) :
    (d.flush keepBatches).sink = d.sink ∨
      ∃ batch, 0 < batch.size ∧ batch.size < b ∧
        (d.flush keepBatches).sink = d.sink.push batch := by
  by_cases hsome : 0 < d.pending.size
  · rw [flush_of_pending keepBatches hsome]
    exact .inr ⟨d.pending, hsome, h.pending_lt, rfl⟩
  · rw [Drain.flush, if_pos (Array.isEmpty_iff_size_eq_zero.mpr (Nat.eq_zero_of_not_pos hsome))]
    exact .inl rfl

theorem flush (h : d.Buffered b handles) : (d.flush keepBatches).Buffered b handles where
  burst := (burst_flush keepBatches d).trans h.burst
  pending_lt := by
    rw [pending_flush]
    exact h.pos
  nonempty := by
    rcases h.sink_flush with hsame | ⟨batch, hpos, -, hpush⟩
    · rw [hsame]
      exact h.nonempty
    · rw [hpush]
      exact Array.forall_mem_push.mpr ⟨hpos, h.nonempty⟩
  drained := (drained_flush keepBatches d).trans h.drained
  order := by
    rw [delivered_flush, pending_flush, Array.toList_empty, List.append_nil, h.order]

theorem sink_gather (h : d.Buffered b handles) (new : Array UInt64) :
    (d.gather keepBatches new).sink = d.sink ∨
      b ≤ (d.fill new).pending.size ∧
        (d.gather keepBatches new).sink = d.sink.push (d.fill new).pending := by
  rw [gather_eq, h.burst]
  split
  · rename_i hfull
    rw [flush_of_pending keepBatches (h.pos.trans_le hfull)]
    exact .inr ⟨hfull, rfl⟩
  · exact .inl rfl

theorem gather (h : d.Buffered b handles) (new : Array UInt64) :
    (d.gather keepBatches new).Buffered b (handles ++ new.toList) where
  burst := (burst_gather keepBatches d new).trans h.burst
  pending_lt := by
    rw [gather_eq, h.burst]
    split
    · rw [pending_flush]
      exact h.pos
    · rename_i hroom
      exact Nat.lt_of_not_le hroom
  nonempty := by
    rcases h.sink_gather new with hsame | ⟨hfull, hpush⟩
    · rw [hsame]
      exact h.nonempty
    · rw [hpush]
      exact Array.forall_mem_push.mpr ⟨h.pos.trans_le hfull, h.nonempty⟩
  drained := by
    rw [gather_eq, apply_ite Drain.drained, drained_flush, ite_self, fill, List.length_append,
      toUInt64_add, ← h.drained, Array.length_toList]
  order := by rw [delivered_gather, h.order]

theorem step (h : d.Buffered b handles) (ring : Ring) :
    (d.step keepBatches ring).2.Buffered b (handles ++ (d.taken ring).toList) := by
  rw [step_eq keepBatches ring (h.burst ▸ h.pending_lt)]
  exact h.gather (d.taken ring)

theorem size_fill_lt (h : d.Buffered b handles) (ring : Ring) :
    (d.fill (d.taken ring)).pending.size < 2 * b := by
  have hpending := h.pending_lt
  have htaken := d.size_taken_le ring
  rw [h.burst] at htaken
  rw [fill, Array.size_append]
  omega

/-- A step hands on one batch of a burst or more, or none. -/
theorem sink_step (h : d.Buffered b handles) (ring : Ring) :
    (d.step keepBatches ring).2.sink = d.sink ∨
      ∃ batch, b ≤ batch.size ∧ batch.size < 2 * b ∧
        (d.step keepBatches ring).2.sink = d.sink.push batch := by
  rw [step_eq keepBatches ring (h.burst ▸ h.pending_lt)]
  rcases h.sink_gather (d.taken ring) with hsame | ⟨hfull, hpush⟩
  · exact .inl hsame
  · exact .inr ⟨_, hfull, h.size_fill_lt ring, hpush⟩

end Buffered

end Drain

/-! ### One thing after another -/

/-- What may happen to a drain and its ring. -/
inductive DrainOp where
  | step
  | flush
  /-- Whoever else has the ring does something to it. -/
  | others (change : Ring → Ring)

namespace DrainedRing

variable {τ : Type}

/-- Does one thing. -/
def act (accept : Sink τ) (x : DrainedRing τ) : DrainOp → DrainedRing τ
  | .step => x.runStep accept
  | .flush => x.flush accept
  | .others change => { x with ring := change x.ring }

/-- Does one thing after another. -/
def run (accept : Sink τ) (ops : List DrainOp) (x : DrainedRing τ) : DrainedRing τ :=
  ops.foldl (act accept) x

/-- Handles that an operation takes out of the ring. -/
def takenBy (x : DrainedRing τ) : DrainOp → List UInt64
  | .step => (x.drain.taken x.ring).toList
  | .flush | .others _ => []

/-- Handles that operations one after another take out of the ring. -/
def takenIn (accept : Sink τ) : List DrainOp → DrainedRing τ → List UInt64
  | [], _ => []
  | op :: ops, x => x.takenBy op ++ takenIn accept ops (x.act accept op)

/-- The ring and its drain with another sink. -/
def handedTo (accept : Sink τ) (sink : τ) (x : DrainedRing (Array (Array UInt64))) :
    DrainedRing τ :=
  ⟨x.ring, x.drain.handedTo accept sink⟩

section

variable (accept : Sink τ) (sink : τ)

theorem handedTo_act (x : DrainedRing (Array (Array UInt64))) (op : DrainOp) :
    (x.handedTo accept sink).act accept op = (x.act keepBatches op).handedTo accept sink := by
  cases op with
  | step => simp only [act, runStep, handedTo, Drain.handedTo_step]
  | flush => simp only [act, flush, handedTo, Drain.handedTo_flush]
  | others change => rfl

theorem handedTo_run (ops : List DrainOp) : ∀ x : DrainedRing (Array (Array UInt64)),
    (x.handedTo accept sink).run accept ops = (x.run keepBatches ops).handedTo accept sink := by
  induction ops with
  | nil => intro x; rfl
  | cons op ops ih =>
      intro x
      rw [run, List.foldl_cons, handedTo_act]
      exact ih (x.act keepBatches op)

end

end DrainedRing

section

variable {b : Nat} {handles : List UInt64} {x : DrainedRing (Array (Array UInt64))}

theorem Drain.Buffered.act (h : x.drain.Buffered b handles) (op : DrainOp) :
    (x.act keepBatches op).drain.Buffered b (handles ++ x.takenBy op) := by
  cases op with
  | step => exact h.step x.ring
  | flush =>
      rw [DrainedRing.takenBy, List.append_nil]
      exact h.flush
  | others change =>
      rw [DrainedRing.takenBy, List.append_nil]
      exact h

theorem Drain.Buffered.run (ops : List DrainOp) :
    ∀ {handles : List UInt64} {x : DrainedRing (Array (Array UInt64))}, x.drain.Buffered b handles →
      (x.run keepBatches ops).drain.Buffered b (handles ++ x.takenIn keepBatches ops) := by
  induction ops with
  | nil =>
      intro handles x h
      rw [DrainedRing.takenIn, List.append_nil]
      exact h
  | cons op ops ih =>
      intro handles x h
      rw [DrainedRing.takenIn, ← List.append_assoc]
      exact ih (h.act op)

end

/-! ### Loops -/

namespace Drain

variable {τ : Type} {accept : Sink τ} {sink : τ} {b : Nat} {d : Drain τ}

/-- Whatever its sink, the drain has taken handles in bursts of `b` and keeps fewer back. -/
def IsBuffered (b : Nat) (accept : Sink τ) (sink : τ) (d : Drain τ) : Prop :=
  ∃ kept : Drain (Array (Array UInt64)), d = kept.handedTo accept sink ∧
    ∃ handles, kept.Buffered b handles

/-- All that the drain has taken has been handed on to a sink that began with `sink`. -/
structure IsSettled (accept : Sink τ) (sink : τ) (d : Drain τ) : Prop where
  pending : d.pending = #[]
  handedOn : ∃ batches : Array (Array UInt64),
    d.sink = batches.foldl (fun sink batch => accept batch sink) sink ∧
      d.drained = (batches.toList.flatMap Array.toList).length.toUInt64

theorem IsBuffered.step (h : d.IsBuffered b accept sink) (ring : Ring) :
    (d.step accept ring).2.IsBuffered b accept sink := by
  obtain ⟨kept, rfl, handles, hkept⟩ := h
  rw [handedTo_step]
  exact ⟨_, rfl, _, hkept.step ring⟩

theorem IsBuffered.flush (h : d.IsBuffered b accept sink) :
    (d.flush accept).IsBuffered b accept sink := by
  obtain ⟨kept, rfl, handles, hkept⟩ := h
  rw [← handedTo_flush]
  exact ⟨_, rfl, _, hkept.flush⟩

theorem IsBuffered.settled (h : d.IsBuffered b accept sink) (hnone : d.pending = #[]) :
    d.IsSettled accept sink := by
  obtain ⟨kept, rfl, handles, hkept⟩ := h
  refine ⟨hnone, kept.sink, rfl, ?_⟩
  change kept.drained = kept.delivered.length.toUInt64
  rw [hkept.delivered_eq hnone, hkept.drained]

theorem flush_of_empty (hnone : d.pending = #[]) : d.flush accept = d := by
  rw [Drain.flush, if_pos (Array.isEmpty_iff.mpr hnone)]

end Drain

namespace Engine

variable {σ : Type}

/-- A loop that began with `x` comes to `s` with `y`. -/
inductive Reaches (e : Engine σ) (f : FlushInterval) (x : σ) : LoopState → σ → Prop
  | initial : Reaches e f x .initial x
  | advance {s s' : LoopState} {y y' : σ} (before : Reaches e f x s y)
      (move : e.advance f s y = (.inl s', y')) : Reaches e f x s' y'

/-- The engine steps and flushes a drain, which its control callback leaves alone, or flushes. -/
structure Drives {τ : Type} (e : Engine σ) (accept : Sink τ) (view : σ → Drain τ) : Prop where
  step : ∀ y, ∃ ring, view (e.runStep y) = ((view y).step accept ring).2
  flush : ∀ y, view (e.flush y) = (view y).flush accept
  control : ∀ y, view (e.control y).2 = view y ∨ view (e.control y).2 = (view y).flush accept

variable {e : Engine σ} {f : FlushInterval} {x : σ}

/-- A loop ends with the last of its moves. -/
theorem Reaches.of_runFrom {fuel : Nat} : ∀ {s : LoopState} {y z : σ} {how : LoopEnd},
    e.Reaches f x s y → e.runFrom f fuel s y = (some how, z) →
      ∃ s' y', e.Reaches f x s' y' ∧ e.advance f s' y' = (.inr how, z) := by
  induction fuel with
  | zero => intro s y z how _ hrun; cases hrun
  | succ fuel ih =>
      intro s y z how hreach hrun
      rw [runFrom] at hrun
      split at hrun
      · rename_i s' y' hmove
        exact ih (hreach.advance hmove) hrun
      · rename_i how' y' hmove
        cases hrun
        exact ⟨s, y, hreach, hmove⟩

variable {τ : Type} {accept : Sink τ} {sink : τ} {view : σ → Drain τ} {b : Nat}

/-- A loop that is at `s` drives a drain of bursts of `b`: from a flush to the next step nothing is
pending. -/
structure Tends (b : Nat) (accept : Sink τ) (sink : τ) (s : LoopState) (d : Drain τ) : Prop where
  buffered : d.IsBuffered b accept sink
  settled : s.point = .control ∨ s.point = .check → d.pending = #[]

theorem Drives.control_eq (h : e.Drives accept view) {y : σ} (hnone : (view y).pending = #[]) :
    view (e.control y).2 = view y := by
  rcases h.control y with hsame | hflush
  · exact hsame
  · rw [hflush, Drain.flush_of_empty hnone]

/-- A step of a loop that flushes is not followed by a look at the stop flag. -/
theorem afterStep_of_flushes (hf : f.value ≠ 0) (iteration : UInt64) :
    ¬ (LoopState.afterStep f iteration = .control ∨ LoopState.afterStep f iteration = .check) := by
  rw [LoopState.afterStep, if_neg (FlushInterval.isNever_iff.not.mpr hf)]
  split <;> simp

theorem Tends.advance (hdrives : e.Drives accept view) (hf : f.value ≠ 0) {s : LoopState} {y : σ}
    (h : Tends b accept sink s (view y)) : match e.advance f s y with
      | (.inl s', y') => Tends b accept sink s' (view y')
      | (.inr _, y') => (view y').IsSettled accept sink := by
  obtain ⟨point, iterations, flushes⟩ := s
  cases point with
  | step =>
      -- Handles may be pending after it, but the loop goes on with a flush or another step.
      obtain ⟨ring, hstep⟩ := hdrives.step y
      refine ⟨?_, fun hpoint => (afterStep_of_flushes hf _ hpoint).elim⟩
      rw [hstep]
      exact h.buffered.step ring
  | flush =>
      refine ⟨?_, fun _ => ?_⟩
      · rw [hdrives.flush y]
        exact h.buffered.flush
      · rw [hdrives.flush y]
        exact Drain.pending_flush accept (view y)
  | control =>
      -- Nothing is pending, so even a flush by the callback does nothing.
      have hnone := h.settled (.inl rfl)
      rw [Engine.advance]
      dsimp only
      cases (e.control y).1 with
      | proceed =>
          refine ⟨?_, fun _ => ?_⟩
          · rw [hdrives.control_eq hnone]
            exact h.buffered
          · rw [hdrives.control_eq hnone]
            exact hnone
      | stop | fail =>
          dsimp only
          rw [hdrives.control_eq hnone]
          exact h.buffered.settled hnone
  | check =>
      have hnone := h.settled (.inr rfl)
      rw [Engine.advance]
      dsimp only
      cases e.stopRequested y with
      | true => exact h.buffered.settled hnone
      | false => exact ⟨h.buffered, fun _ => hnone⟩

theorem Reaches.tends (hdrives : e.Drives accept view) (hf : f.value ≠ 0)
    (hx : (view x).IsBuffered b accept sink) {s : LoopState} {y : σ} (h : e.Reaches f x s y) :
    Tends b accept sink s (view y) := by
  induction h with
  | initial => exact ⟨hx, fun hpoint => by cases hpoint <;> contradiction⟩
  | advance _ hmove ih =>
      have hnext := ih.advance hdrives hf
      rw [hmove] at hnext
      exact hnext

theorem settled_of_run (hdrives : e.Drives accept view) (hf : f.value ≠ 0)
    (hx : (view x).IsBuffered b accept sink) {fuel : Nat} {how : LoopEnd} {y : σ}
    (hrun : e.run f fuel x = (some how, y)) : (view y).IsSettled accept sink := by
  obtain ⟨s, z, hreach, hmove⟩ := Reaches.of_runFrom .initial hrun
  have hlast := (hreach.tends hdrives hf hx).advance hdrives hf
  rw [hmove] at hlast
  exact hlast

end Engine

/-! ### In all -/

/-- What a drain of bursts of `b` does that has taken `handles`. -/
structure DrainedRing.KeepsBack (b : Nat) (handles : List UInt64)
    (x : DrainedRing (Array (Array UInt64))) : Prop where
  /-- From one call to the next fewer handles than a burst are pending. -/
  pending_lt : x.drain.pending.size < b
  /-- In the middle of a step there are more, but two bursts have room for them. -/
  room : (x.drain.fill (x.drain.taken x.ring)).pending.size ≤ 2 * b
  step_eq : (x.runStep keepBatches).drain =
    let d := x.drain.fill (x.drain.taken x.ring)
    if b ≤ d.pending.size then d.flush keepBatches else d
  /-- A step takes the oldest handles of a ring at rest. -/
  oldest : ∀ queued, x.ring.Has queued → (x.drain.taken x.ring).toList = queued.take b ∧
    (x.runStep keepBatches).ring.Has (queued.drop b)
  nonempty : ∀ batch ∈ x.drain.sink, 0 < batch.size
  step : (x.runStep keepBatches).drain.sink = x.drain.sink ∨
    ∃ batch, b ≤ batch.size ∧ batch.size ≤ 2 * b - 1 ∧
      (x.runStep keepBatches).drain.sink = x.drain.sink.push batch
  flush : (x.flush keepBatches).drain.sink = x.drain.sink ∨
    ∃ batch, 0 < batch.size ∧ batch.size < b ∧
      (x.flush keepBatches).drain.sink = x.drain.sink.push batch
  drained : x.drain.drained = (x.drain.delivered.length + x.drain.pending.size).toUInt64
  order : x.drain.delivered ++ x.drain.pending.toList = handles

theorem Drain.Buffered.keepsBack {b : Nat} {handles : List UInt64}
    {x : DrainedRing (Array (Array UInt64))} (h : x.drain.Buffered b handles)
    (hlt : b < UInt64.size) : x.KeepsBack b handles where
  pending_lt := h.pending_lt
  room := (h.size_fill_lt x.ring).le
  step_eq := by
    change (x.drain.step keepBatches x.ring).2 = _
    rw [Drain.step_eq keepBatches x.ring (h.burst ▸ h.pending_lt), Drain.gather_eq, h.burst]
  oldest := by
    obtain rfl := h.burst
    intro queued hring
    exact ⟨Drain.taken_ok hring h.pos.ne' hlt, (Drain.step_ok h.pos.ne' hlt hring).1⟩
  nonempty := h.nonempty
  step := by
    rcases h.sink_step x.ring with hsame | ⟨batch, hfull, hlt, hpush⟩
    · exact .inl hsame
    · exact .inr ⟨batch, hfull, Nat.le_sub_one_of_lt hlt, hpush⟩
  flush := h.sink_flush
  drained := h.drained_eq
  order := h.order

/-- **Buffering.**  A drain that has begun on any ring of handles, for any bursts, after any steps
and flushes and whatever has been done to the ring between them: it keeps back fewer handles than a
burst and never needs more room than for two; it hands on no empty batch, with a step between one
burst and two, with a flush less than one; its count is right, and what it has handed on and what is
pending are in a row the handles that it took.  Any sink gets the same batches.  And a loop with a
flush interval that from now on drives the drain, by any engine whose control callback does not step,
finds nothing pending whenever it asks and when it ends, so that all handles taken have been handed
on. -/
theorem DrainedRing.keeps_back {ring : Ring} {burst : UInt64}
    {drain : Drain (Array (Array UInt64))}
    (hdrain : Drain.create ring burst.toNat #[] = .ok drain) (ops : List DrainOp) :
    let begun : DrainedRing (Array (Array UInt64)) := ⟨ring, drain⟩
    let x := begun.run keepBatches ops
    x.KeepsBack (max burst.toNat 1) (begun.takenIn keepBatches ops) ∧
    (∀ {τ : Type} (accept : Sink τ) (sink : τ),
      Drain.create ring burst.toNat sink = .ok (drain.handedTo accept sink) ∧
        (begun.handedTo accept sink).run accept ops = x.handedTo accept sink) ∧
    ∀ {σ τ : Type} (e : Engine σ) (accept : Sink τ) (sink : τ) (view : σ → Drain τ),
      e.Drives accept view → ∀ f : FlushInterval, f.value ≠ 0 →
      ∀ start, view start = x.drain.handedTo accept sink →
        (∀ s y, e.Reaches f start s y → s.point = .control → (view y).IsSettled accept sink) ∧
        ∀ fuel how y, e.run f fuel start = (some how, y) → (view y).IsSettled accept sink := by
  intro begun x
  have hbegun : begun.drain.Buffered (max burst.toNat 1) [] := .create hdrain
  have h : x.drain.Buffered (max burst.toNat 1) (begun.takenIn keepBatches ops) := hbegun.run ops
  refine ⟨h.keepsBack (Nat.max_lt.mpr ⟨burst.toNat_lt, by decide⟩), fun accept sink => ⟨?_, ?_⟩, ?_⟩
  · obtain ⟨hwidth, rfl⟩ := Drain.create_eq_ok hdrain
    exact Drain.create_ok hwidth burst.toNat _
  · exact handedTo_run accept sink ops begun
  · intro σ τ e accept sink view hdrives f hf start hstart
    have hbuffered : (view start).IsBuffered (max burst.toNat 1) accept sink :=
      ⟨x.drain, hstart, _, h⟩
    refine ⟨fun s y hreach hpoint => ?_, fun fuel how y hrun => ?_⟩
    · have hnow := hreach.tends hdrives hf hbuffered
      exact hnow.buffered.settled (hnow.settled (.inl hpoint))
    · exact Engine.settled_of_run hdrives hf hbuffered hrun

/-- A consumer drives the drain that it has. -/
theorem Consumer.engine_drives (stop : StopSwitch) :
    (engine stop).Drives countHandles DrainedRing.drain where
  step x := ⟨x.ring, rfl⟩
  flush _ := rfl
  control _ := .inl rfl

namespace DrainedRing

/-- A ring with room for eight handles. -/
def wideRing : Ring :=
  .ofShape ⟨"wide", by decide⟩
    ⟨8, handleSize, by decide, by decide, ReceiveCache.narrowRing.shape.elementSize_pos,
      ReceiveCache.narrowRing.shape.elementSize_mod, by decide, .wrapping⟩ .multi .multi

/-- Steps that hand on nothing and one that does, with a flush, between enqueues. -/
def drainOps : List DrainOp :=
  [.others fun ring => ring.after [.enqueue #[1, 2] .burst], .step,
    .others fun ring => ring.after [.enqueue #[3, 4, 5, 6] .burst], .step, .step, .flush,
    .others fun ring => ring.after [.enqueueOne 7, .enqueueOne 8], .step]

/-- A drain of three handles at a time, after all that. -/
def wideDrained : DrainedRing (Array (Array UInt64)) :=
  run keepBatches drainOps ⟨wideRing, Relay.emptyDrain⟩

/-- A flush after every fourth step. -/
def everyFourth : FlushInterval := ⟨4, .inr rfl⟩

theorem keeps_back_wide :
    Drain.create wideRing 3 #[] = .ok Relay.emptyDrain ∧
      wideDrained.KeepsBack 3 [1, 2, 3, 4, 5, 6, 7, 8] ∧
      wideDrained.drain.sink = #[#[1, 2, 3, 4, 5], #[6]] ∧
      ∃ y, (Consumer.engine ⟨true⟩).run everyFourth 10 (wideDrained.handedTo countHandles 0) =
        (some (.ok ⟨4, 1, .control⟩), y) ∧ y.drain.IsSettled countHandles 0 := by
  have hdrain : Drain.create wideRing (UInt64.toNat 3) #[] = .ok Relay.emptyDrain :=
    Drain.create_ok rfl (UInt64.toNat 3) #[]
  have hburst : max (UInt64.toNat 3) 1 = 3 := rfl
  have htaken : takenIn keepBatches drainOps ⟨wideRing, Relay.emptyDrain⟩ =
      [1, 2, 3, 4, 5, 6, 7, 8] := by
    decide +kernel
  obtain ⟨hkeeps, -, hloop⟩ := keeps_back hdrain drainOps
  rw [hburst, htaken] at hkeeps
  have hdrained : run keepBatches drainOps ⟨wideRing, Relay.emptyDrain⟩ = wideDrained := rfl
  rw [hdrained] at hloop
  obtain ⟨-, hsettled⟩ := hloop (Consumer.engine ⟨true⟩) countHandles 0 drain
    (Consumer.engine_drives _) everyFourth (by decide) (wideDrained.handedTo countHandles 0) rfl
  have hended : ((Consumer.engine ⟨true⟩).run everyFourth 10
      (wideDrained.handedTo countHandles 0)).1 = some (.ok ⟨4, 1, .control⟩) := by
    decide +kernel
  have hall := hsettled 10
  refine ⟨hdrain, hkeeps, by decide +kernel, ?_⟩
  generalize (Consumer.engine ⟨true⟩).run everyFourth 10 (wideDrained.handedTo countHandles 0) = ended
    at hended hall ⊢
  obtain ⟨how, y⟩ := ended
  cases hended
  exact ⟨y, rfl, hall _ y rfl⟩

end DrainedRing

end BurstRing
