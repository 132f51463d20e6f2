import BurstRing.Proofs.Pipeline.Buffering

/-!
# What a consumer takes once it is to stop

A consumer that finds the switch raised when it begins does not stop at once: its loop looks at the
switch where it flushes, or after a step if it never does.  So it makes one interval of steps, or
one step, and each takes a burst while there is one (`DrainedRing.HasTaken`).  The loop ends then
(`DrainedRing.run_stopped`), and the last flush hands on what is pending.

`Ring.consume` is that from beginning to end for a sink of any kind, and `Consumer.consume` for the
consumer's own.  The main statement is `Consumer.consumes_promised`.
-/

namespace BurstRing

variable {τ : Type}

/-! ### From beginning to end -/

/-- The engine of a loop on a drain while the switch stands at `stop`. -/
def DrainedRing.engine (accept : Sink τ) (stop : StopSwitch) : Engine (DrainedRing τ) where
  runStep := runStep accept
  flush := flush accept
  control x := (stop.control, x)
  stopRequested _ := stop.raised

/-- Drains `ring` under a loop of at most `fuel` moves.  If the loop ends well, what is pending is
handed on. -/
def Ring.consume (accept : Sink τ) (sink : τ) (pipeline : PipelineConfig) (stop : StopSwitch)
    (fuel : Nat) (ring : Ring) : Except RingError (Option LoopEnd × Drain τ) × Ring :=
  match Drain.create ring pipeline.burstSize.toNat sink with
  | .error e => (.error e, ring)
  | .ok drain =>
    match (DrainedRing.engine accept stop).run pipeline.flushInterval fuel ⟨ring, drain⟩ with
    | (some (.ok report), x) => (.ok (some (.ok report), x.drain.flush accept), x.ring)
    | (how, x) => (.ok (how, x.drain), x.ring)

namespace Consumer

/-- A consumer on `ring` that begins and moves on by itself. -/
def consume (pipeline : PipelineConfig) (stop : StopSwitch) (fuel : Nat) (ring : Ring) :
    Except RingError Consumer × Ring :=
  match create pipeline ring with
  | .error e => (.error e, ring)
  | .ok c =>
    let (ring, c) := c.finish stop fuel ring
    (.ok c, ring)

theorem engine_eq (stop : StopSwitch) : engine stop = DrainedRing.engine countHandles stop := rfl

theorem finish_of_isOver {c : Consumer} (hover : c.isOver = true) (stop : StopSwitch) (ring : Ring)
    (fuel : Nat) : c.finish stop fuel ring = (ring, c) := by
  cases fuel with
  | zero => rfl
  | succ fuel => rw [finish, if_pos hover]

/-- A consumer moves on until its loop has ended well, and flushes its drain then. -/
theorem finish_of_runFrom {stop : StopSwitch} {interval : FlushInterval} {report : LoopReport}
    {y : DrainedRing UInt64} {fuel : Nat} : ∀ {s : LoopState} {ring : Ring} {drain : Drain UInt64},
      (DrainedRing.engine countHandles stop).runFrom interval fuel s ⟨ring, drain⟩ =
        (some (.ok report), y) →
      finish stop fuel ring ⟨interval, drain, .inl s⟩ =
        (y.ring, ⟨interval, y.drain.flush countHandles, .inr (.ok report)⟩) := by
  induction fuel with
  | zero => intro s ring drain hrun; cases hrun
  | succ fuel ih =>
      intro s ring drain hrun
      rw [Engine.runFrom] at hrun
      rw [finish, isOver, Sum.isRight_inl, if_neg Bool.false_ne_true, advance]
      dsimp only
      rw [engine_eq]
      generalize (DrainedRing.engine countHandles stop).advance interval s ⟨ring, drain⟩ = move
        at hrun ⊢
      obtain ⟨s' | how, ring', drain'⟩ := move
      · exact ih hrun
      · cases hrun
        exact finish_of_isOver rfl stop ring' fuel

/-- What is drained with the sink that counts is what a consumer drains by itself. -/
theorem consume_of_ends {pipeline : PipelineConfig} {stop : StopSwitch} {fuel : Nat}
    {ring left : Ring} {report : LoopReport} {drain : Drain UInt64}
    (h : Ring.consume countHandles 0 pipeline stop fuel ring =
      (.ok (some (.ok report), drain), left)) :
    consume pipeline stop fuel ring =
      (.ok ⟨pipeline.flushInterval, drain, .inr (.ok report)⟩, left) := by
  rw [Ring.consume] at h
  rw [consume, create]
  cases hcreate : Drain.create ring pipeline.burstSize.toNat (0 : UInt64) with
  | error e =>
      rw [hcreate] at h
      cases h
  | ok begun =>
      rw [hcreate] at h
      dsimp only [bind, Except.bind] at h ⊢
      split at h
      · rename_i report' x hrun
        rw [finish_of_runFrom hrun]
        cases h
        rfl
      · rename_i how x hother hrun
        cases h
        exact (hother report rfl).elim

end Consumer

/-! ### The first end -/

namespace FlushInterval

/-- The step after which a loop first looks at the switch. -/
def firstLook (f : FlushInterval) : Nat := max 1 f.value.toNat

variable {f : FlushInterval}

theorem not_isFlushPoint_of_lt {n : Nat} (hpos : 0 < n) (hlt : n < f.firstLook) :
    f.value ≠ 0 ∧ ¬ f.IsFlushPoint n := by
  have hn : n < f.value.toNat := (lt_max_iff.mp hlt).resolve_left (Nat.not_lt.mpr hpos)
  refine ⟨fun hzero => ?_, fun hflush => Nat.not_dvd_of_pos_of_lt hpos hn hflush.2⟩
  rw [value_eq_zero_iff.mp hzero] at hn
  exact Nat.not_lt_zero n hn

/-- What is reported of a loop that ends with its first look at the switch. -/
def firstReport (f : FlushInterval) : LoopReport where
  iterations := f.firstLook.toUInt64
  flushes := if f.value.toNat = 0 then 0 else 1
  exit := if f.value.toNat = 0 then .stopFlag else .control

end FlushInterval

namespace DrainedRing

variable (accept : Sink τ) (f : FlushInterval)

theorem undecided_stopped (x : DrainedRing τ) {n : Nat} (hlt : n < f.firstLook) :
    (engine accept ⟨true⟩).Undecided f n x := by
  intro i hi
  obtain ⟨hvalue, hflush⟩ := FlushInterval.not_isFlushPoint_of_lt (f := f) i.succ_pos (by omega)
  rw [Engine.verdict, if_neg hflush, if_neg fun h => hvalue h.1]

theorem verdict_stopped (x : DrainedRing τ) :
    (engine accept ⟨true⟩).verdict f f.firstLook x = some (.ok f.firstReport) := by
  by_cases hzero : f.value.toNat = 0
  · have hvalue : f.value = 0 := FlushInterval.value_eq_zero_iff.mpr hzero
    have hlook : f.firstLook = 1 := by
      rw [FlushInterval.firstLook, hzero]
      rfl
    rw [Engine.verdict, if_neg fun h => h.1 hvalue, if_pos ⟨hvalue, rfl⟩, Engine.report,
      FlushInterval.firstReport, hlook, hzero]
    rfl
  · have hpos : 0 < f.value.toNat := Nat.pos_of_ne_zero hzero
    have hlook : f.firstLook = f.value.toNat := Nat.max_eq_right hpos
    have hflush : f.IsFlushPoint f.firstLook :=
      ⟨FlushInterval.value_eq_zero_iff.not.mpr hzero, hlook ▸ Nat.dvd_refl _⟩
    rw [Engine.verdict, if_pos hflush]
    change some (Except.ok (Engine.report f f.firstLook .control)) = _
    rw [Engine.report, FlushInterval.firstReport, hlook, Nat.div_self hpos, if_neg hzero,
      if_neg hzero]
    rfl

/-- With the switch raised a loop ends as soon as it looks at it. -/
theorem run_stopped (x : DrainedRing τ) : ∃ enough, ∀ fuel,
    (engine accept ⟨true⟩).run f (fuel + enough) x =
      (some (.ok f.firstReport), (engine accept ⟨true⟩).after f f.firstLook x) := by
  obtain ⟨n, hn⟩ : ∃ n, f.firstLook = n + 1 :=
    Nat.exists_eq_add_of_le' (Nat.le_max_left 1 f.value.toNat)
  have hundecided := undecided_stopped accept f x (n := n) (by omega)
  have hverdict := verdict_stopped accept f ((engine accept ⟨true⟩).after f n x)
  rw [hn] at hverdict ⊢
  exact hundecided.run_verdict hverdict

theorem turn_eq (stop : StopSwitch) (n : Nat) (x : DrainedRing τ) :
    (engine accept stop).turn f n x =
      if f.IsFlushPoint n then (x.runStep accept).flush accept else x.runStep accept := rfl

/-- Turns of a loop do with any sink what they do with one that keeps its batches. -/
theorem handedTo_after (sink : τ) (stop : StopSwitch) (n : Nat)
    (x : DrainedRing (Array (Array UInt64))) :
    (engine accept stop).after f n (x.handedTo accept sink) =
      ((engine keepBatches stop).after f n x).handedTo accept sink := by
  induction n with
  | zero => rfl
  | succ n ih =>
      have hstep := handedTo_act accept sink ((engine keepBatches stop).after f n x) .step
      have hflush := handedTo_act accept sink
        (((engine keepBatches stop).after f n x).runStep keepBatches) .flush
      dsimp only [act] at hstep hflush
      rw [Engine.after, ih, Engine.after, turn_eq, turn_eq, hstep, hflush,
        apply_ite (handedTo accept sink)]

/-! ### What is taken -/

/-- Out of a ring of `handles` so many bursts of `b` have been taken. -/
structure HasTaken (b bursts : Nat) (handles : List UInt64)
    (x : DrainedRing (Array (Array UInt64))) : Prop where
  drain : x.drain.Buffered b (handles.take (b * bursts))
  ring : x.ring.Has (handles.drop (b * bursts))

variable {b bursts : Nat} {handles : List UInt64} {x : DrainedRing (Array (Array UInt64))}

theorem HasTaken.runStep (h : x.HasTaken b bursts handles) (hlt : b < UInt64.size) :
    (x.runStep keepBatches).HasTaken b (bursts + 1) handles := by
  obtain ⟨hdrain, hring⟩ := h
  have hpos := hdrain.pos.ne'
  obtain rfl := hdrain.burst
  refine ⟨?_, ?_⟩
  · rw [Nat.mul_succ, List.take_add, ← Drain.taken_ok hring hpos hlt]
    exact hdrain.step x.ring
  · rw [Nat.mul_succ, ← List.drop_drop]
    exact (Drain.step_ok hpos hlt hring).1

theorem HasTaken.flush (h : x.HasTaken b bursts handles) :
    (x.flush keepBatches).HasTaken b bursts handles :=
  ⟨h.drain.flush, h.ring⟩

/-- Every turn takes one burst more. -/
theorem HasTaken.after (h : x.HasTaken b 0 handles) (hlt : b < UInt64.size) (stop : StopSwitch)
    (n : Nat) : ((engine keepBatches stop).after f n x).HasTaken b n handles := by
  induction n with
  | zero => exact h
  | succ n ih =>
      have hstep := ih.runStep hlt
      rw [Engine.after, turn_eq]
      split
      · exact hstep.flush
      · exact hstep

end DrainedRing

/-! ### In all -/

/-- The sink that counts has counted every handle of its batches. -/
theorem foldl_countHandles (batches : List (Array UInt64)) : ∀ n : Nat,
    batches.foldl (fun sink batch => countHandles batch sink) n.toUInt64 =
      (n + (batches.flatMap Array.toList).length).toUInt64 := by
  induction batches with
  | nil => intro n; rfl
  | cons batch batches ih =>
      intro n
      have hbatch : batch.toList.length = batch.size := Array.length_toList
      rw [List.foldl_cons, countHandles, ← toUInt64_add, ih, List.flatMap_cons, List.length_append,
        hbatch, Nat.add_assoc]

namespace Drain.Buffered

variable {b : Nat} {handles : List UInt64} {d : Drain (Array (Array UInt64))}

/-- A drain with nothing pending is known by its batches. -/
theorem handedTo_eq (h : d.Buffered b handles) (hnone : d.pending = #[]) (accept : Sink τ)
    (sink : τ) : d.handedTo accept sink = ⟨b, #[], handles.length.toUInt64,
      d.sink.foldl (fun sink batch => accept batch sink) sink⟩ := by
  rw [handedTo, h.burst, hnone, h.drained]

theorem handedTo_countHandles (h : d.Buffered b handles) (hnone : d.pending = #[]) :
    d.handedTo countHandles 0 =
      ⟨b, #[], handles.length.toUInt64, handles.length.toUInt64⟩ := by
  have hcounted := foldl_countHandles d.sink.toList 0
  rw [Array.foldl_toList, Nat.zero_add] at hcounted
  rw [h.handedTo_eq hnone, ← h.delivered_eq hnone]
  exact congrArg _ hcounted

end Drain.Buffered

/-- With the switch raised, as many bursts are taken as there are steps before the first look at
it, and all of them are handed on. -/
theorem Ring.Has.consume {ring : Ring} {handles : List UInt64} (h : ring.Has handles)
    (pipeline : PipelineConfig) :
    let b := max pipeline.burstSize.toNat 1
    let taken := min handles.length (b * pipeline.flushInterval.firstLook)
    ∃ (kept : Drain (Array (Array UInt64))) (left : Ring),
      kept.Buffered b (handles.take taken) ∧ kept.pending = #[] ∧ left.Has (handles.drop taken) ∧
      ∀ {τ : Type} (accept : Sink τ) (sink : τ), ∃ enough, ∀ fuel,
        ring.consume accept sink pipeline ⟨true⟩ (fuel + enough) =
          (.ok (some (.ok pipeline.flushInterval.firstReport), kept.handedTo accept sink), left) := by
  intro b taken
  have hwidth := h.elementSize_eq
  let begun : DrainedRing (Array (Array UInt64)) := ⟨ring, ⟨b, #[], 0, #[]⟩⟩
  have hbegun : begun.HasTaken b 0 handles :=
    ⟨.create (Drain.create_ok hwidth pipeline.burstSize.toNat #[]), h⟩
  have hlast := hbegun.after (f := pipeline.flushInterval)
    (Nat.max_lt.mpr ⟨pipeline.burstSize.toNat_lt, by decide⟩) ⟨true⟩
    pipeline.flushInterval.firstLook
  have htaken : taken = min (b * pipeline.flushInterval.firstLook) handles.length :=
    Nat.min_comm _ _
  rw [htaken, ← List.take_eq_take_min, ← List.drop_eq_drop_min]
  -- The last flush is the consumer's own; after one by the loop it finds nothing.
  refine ⟨_, _, hlast.flush.drain, Drain.pending_flush keepBatches _, hlast.ring, ?_⟩
  intro τ accept sink
  obtain ⟨enough, hrun⟩ :=
    DrainedRing.run_stopped accept pipeline.flushInterval (begun.handedTo accept sink)
  refine ⟨enough, fun fuel => ?_⟩
  have hbegin : begun.handedTo accept sink = ⟨ring, ⟨b, #[], 0, sink⟩⟩ := by
    simp [begun, DrainedRing.handedTo, Drain.handedTo]
  rw [hbegin] at hrun
  rw [Ring.consume, Drain.create_ok hwidth]
  dsimp only
  rw [hrun, ← hbegin, DrainedRing.handedTo_after]
  dsimp only [DrainedRing.handedTo, DrainedRing.flush]
  rw [Drain.handedTo_flush]

/-- **The promise of a consumer that is to stop.**  On any ring of handles, whatever has been done to
it, with any burst size and flush interval, a consumer that finds the switch raised makes as many
steps as its interval has, or one if it never flushes.  Its sink, whichever it is, gets the oldest
handles in order, a burst for each step or as many as there are; the others stay in the ring, and
nothing is pending.  Its loop ends by control after one flush, or without one by the stop flag.  On a
ring of other elements a consumer does not begin. -/
theorem Consumer.consumes_promised {memory : Memory} {name : RingName} {capacity : UInt64}
    {producer consumer : SyncMode} {created : Ring}
    (hcreate : Ring.withHandles memory name capacity producer consumer = .ok created)
    {calls : List RingCall} (hfits : ∀ call ∈ calls, call.Fits) (pipeline : PipelineConfig) :
    let ring := created.after calls
    let b := max pipeline.burstSize.toNat 1
    let k := pipeline.flushInterval.value.toNat
    let promised := min ring.count (b * max 1 k)
    let report : LoopReport := ⟨(max 1 k).toUInt64, if k = 0 then 0 else 1,
      if k = 0 then .stopFlag else .control⟩
    (∃ (batches : Array (Array UInt64)) (left : Ring),
      batches.toList.flatMap Array.toList = ring.contents.take promised ∧
      left.contents = ring.contents.drop promised ∧
      (∀ {τ : Type} (accept : Sink τ) (sink : τ), ∃ enough, ∀ fuel,
        ring.consume accept sink pipeline ⟨true⟩ (fuel + enough) =
          (.ok (some (.ok report), ⟨b, #[], promised.toUInt64,
            batches.foldl (fun sink batch => accept batch sink) sink⟩), left)) ∧
      ∃ enough, ∀ fuel,
        consume pipeline ⟨true⟩ (fuel + enough) ring =
          (.ok ⟨pipeline.flushInterval, ⟨b, #[], promised.toUInt64, promised.toUInt64⟩,
            .inr (.ok report)⟩, left)) ∧
    ∀ other : Ring, other.elementSize ≠ handleSize → ∀ stop fuel,
      let mismatch : RingError := .elementSizeMismatch other.elementSize handleSize
      (∀ {τ : Type} (accept : Sink τ) (sink : τ),
        other.consume accept sink pipeline stop fuel = (.error mismatch, other)) ∧
      consume pipeline stop fuel other = (.error mismatch, other) := by
  intro ring b k promised report
  refine ⟨?_, fun other hwidth stop fuel => ⟨fun accept sink => ?_, ?_⟩⟩
  · obtain ⟨handles, hring⟩ := Ring.has_after hcreate hfits
    obtain ⟨kept, left, hkept, hnone, hleft, hconsume⟩ := hring.consume pipeline
    have hcount : ring.count = handles.length := hring.count_eq
    have hlength : (handles.take promised).length = promised := by
      rw [List.length_take]
      exact Nat.min_eq_left (hcount ▸ Nat.min_le_left _ _)
    rw [← hcount] at hkept hleft
    replace hkept : kept.Buffered b (handles.take promised) := hkept
    have hcontents : ring.contents = handles := hring.contents_eq
    rw [hcontents]
    refine ⟨kept.sink, left, hkept.delivered_eq hnone, hleft.contents_eq, fun accept sink => ?_, ?_⟩
    · obtain ⟨enough, hends⟩ := hconsume accept sink
      rw [hkept.handedTo_eq hnone, hlength] at hends
      exact ⟨enough, hends⟩
    · obtain ⟨enough, hends⟩ := hconsume countHandles 0
      rw [hkept.handedTo_countHandles hnone, hlength] at hends
      exact ⟨enough, fun fuel => consume_of_ends (hends fuel)⟩
  · rw [Ring.consume, Drain.create_of_ne hwidth]
  · rw [consume, create, Drain.create_of_ne hwidth]
    rfl

namespace Consumer

/-- Seven handles enqueued, and one of them taken. -/
def sixQueued : List RingCall := [.enqueue #[1, 2, 3, 4, 5, 6, 7] .burst, .dequeueOne]

theorem consumes_promised_wide :
    ∃ left : Ring, left.contents = [6, 7] ∧ ∃ enough, ∀ fuel,
      consume ⟨DrainedRing.everyFourth, 1⟩ ⟨true⟩ (fuel + enough)
          (DrainedRing.wideRing.after sixQueued) =
        (.ok ⟨DrainedRing.everyFourth, ⟨1, #[], 4, 4⟩, .inr (.ok ⟨4, 1, .control⟩)⟩, left) := by
  have hcreate : Ring.withHandles (.below 100) DrainedRing.wideRing.name 8 .multi .multi =
    .ok DrainedRing.wideRing := rfl
  have hfits : ∀ call ∈ sixQueued, call.Fits := by decide
  have hcount : (DrainedRing.wideRing.after sixQueued).count = 6 := by decide +kernel
  have hcontents : (DrainedRing.wideRing.after sixQueued).contents = [2, 3, 4, 5, 6, 7] := by
    decide +kernel
  obtain ⟨⟨batches, left, -, hleft, -, enough, hconsume⟩, -⟩ :=
    consumes_promised hcreate hfits ⟨DrainedRing.everyFourth, 1⟩
  rw [hcount] at hleft hconsume
  rw [hcontents] at hleft
  exact ⟨left, hleft, enough, hconsume⟩

end Consumer

end BurstRing
