import BurstRing.Proofs.Ring.Contents
import BurstRing.Proofs.Run.Producer
import BurstRing.Run.Consumer

/-!
# A consumer and what it has taken

Every handle that a drain has taken has been counted by its sink or is pending
(`Drain.Tallies`), and nothing is pending once the consumer is over.  A drain does not look at
what a dequeue fails of; on a ring of handles at rest none fails (`Ring.Represents.dequeue_ok`), and
the loop cannot fail either, because its control callback only ever goes on or stops.
-/

namespace BurstRing

namespace Drain

section

variable {τ : Type} {ring : Ring} {burst : Nat} {sink : τ}

theorem create_ok (hwidth : ring.elementSize = handleSize) (burst : Nat) (sink : τ) :
    create ring burst sink = .ok ⟨max burst 1, #[], 0, sink⟩ :=
  if_neg (not_not.mpr hwidth)

theorem create_of_ne (hwidth : ring.elementSize ≠ handleSize) (burst : Nat) (sink : τ) :
    create ring burst sink = .error (.elementSizeMismatch ring.elementSize handleSize) :=
  if_pos hwidth

theorem create_eq_ok {d : Drain τ} (h : create ring burst sink = .ok d) :
    ring.elementSize = handleSize ∧ d = ⟨max burst 1, #[], 0, sink⟩ := by
  by_cases hwidth : ring.elementSize = handleSize
  · rw [create_ok hwidth] at h
    cases h
    exact ⟨hwidth, rfl⟩
  · rw [create_of_ne hwidth] at h
    cases h

end

/-- Of the handles taken, the sink has counted some, and the others are pending. -/
structure Tallies (taken : Nat) (d : Drain UInt64) : Prop where
  drained : d.drained = taken.toUInt64
  balance : ∃ delivered : Nat, d.sink = delivered.toUInt64 ∧ delivered + d.pending.size = taken

variable {taken : Nat} {d : Drain UInt64}

theorem Tallies.flush (h : d.Tallies taken) : (d.flush countHandles).Tallies taken := by
  rw [Drain.flush]
  split
  · exact h
  · obtain ⟨delivered, hsink, hbalance⟩ := h.balance
    refine ⟨h.drained, delivered + d.pending.size, ?_, hbalance⟩
    rw [toUInt64_add, ← hsink]
    rfl

theorem pending_flush {τ : Type} (accept : Sink τ) (d : Drain τ) :
    (d.flush accept).pending = #[] := by
  rw [Drain.flush]
  split
  · rename_i hempty
    exact Array.isEmpty_iff.mp hempty
  · rfl

theorem burst_flush {τ : Type} (accept : Sink τ) (d : Drain τ) :
    (d.flush accept).burst = d.burst := by
  rw [Drain.flush]
  split <;> rfl

theorem Tallies.gather (h : d.Tallies taken) (handles : Array UInt64) :
    (d.gather countHandles handles).Tallies (taken + handles.size) := by
  have hmore : Tallies (taken + handles.size) { d with
      pending := d.pending ++ handles, drained := d.drained + handles.size.toUInt64 } := by
    obtain ⟨delivered, hsink, hbalance⟩ := h.balance
    refine ⟨by rw [toUInt64_add, ← h.drained], delivered, hsink, ?_⟩
    rw [Array.size_append, ← hbalance, Nat.add_assoc]
  rw [Drain.gather]
  dsimp only
  split
  · exact hmore.flush
  · exact hmore

theorem burst_gather {τ : Type} (accept : Sink τ) (d : Drain τ) (handles : Array UInt64) :
    (d.gather accept handles).burst = d.burst := by
  rw [Drain.gather]
  dsimp only
  split
  · exact burst_flush accept _
  · rfl

/-- One burst out of a ring of handles at rest. -/
theorem Tallies.step (h : d.Tallies taken) (hpos : d.burst ≠ 0) (hlt : d.burst < UInt64.size)
    {ring : Ring} {q : RecordQueue} (hq : ring.Represents q) (hwidth : q.width = handleSize) :
    ∃ n ≤ q.records.length,
      (d.step countHandles ring).1.Represents { q with records := q.records.drop n } ∧
      (d.step countHandles ring).2.Tallies (taken + n) ∧
      (d.step countHandles ring).2.burst = d.burst := by
  have hsize : (Array.replicate d.burst (0 : UInt64)).size = d.burst := Array.size_replicate
  obtain ⟨n, hlen, hn, houtcome, hout, hring⟩ :=
    hq.dequeue_ok hwidth (hsize.trans_ne hpos) (hsize.trans_lt hlt)
  refine ⟨n, hlen, ?_⟩
  rw [Drain.step]
  generalize ring.dequeue (Array.replicate d.burst 0) .burst = answer at houtcome hout hring ⊢
  obtain ⟨outcome, out, ring'⟩ := answer
  cases houtcome
  dsimp only at hout hring ⊢
  refine ⟨hring, ?_⟩
  split
  · -- Nothing came, and the drain is left alone.
    rename_i hzero
    rw [hzero]
    exact ⟨h, rfl⟩
  · have hgather := h.gather (out.extract 0 n)
    rw [Array.size_extract, hout, Nat.sub_zero, Nat.min_eq_left hn] at hgather
    exact ⟨hgather, burst_gather countHandles d _⟩

end Drain

namespace Consumer

/-- A consumer that has taken so many handles, and whose loop is under way or ended well. -/
structure Serves (taken : Nat) (c : Consumer) : Prop where
  tallies : c.drain.Tallies taken
  burst_pos : c.drain.burst ≠ 0
  burst_lt : c.drain.burst < UInt64.size
  loop : (∃ s, c.loop = .inl s) ∨ (∃ report, c.loop = .inr (.ok report)) ∧ c.drain.pending = #[]

variable {taken : Nat} {c : Consumer}

/-- On a ring of handles a consumer can begin. -/
theorem create_ok {ring : Ring} (hwidth : ring.elementSize = handleSize)
    (pipeline : PipelineConfig) : ∃ c, create pipeline ring = .ok c ∧ c.Serves 0 := by
  refine ⟨_, by rw [create, Drain.create_ok hwidth]; rfl, ?_⟩
  exact {
    tallies := ⟨rfl, 0, rfl, rfl⟩
    burst_pos := Nat.ne_of_gt (Nat.lt_of_lt_of_le Nat.one_pos (Nat.le_max_right _ 1))
    burst_lt := Nat.max_lt.mpr ⟨pipeline.burstSize.toNat_lt, by decide⟩
    loop := .inl ⟨.initial, rfl⟩ }

theorem Serves.flush (h : c.Serves taken) (loop : LoopState) :
    Serves taken { c with drain := c.drain.flush countHandles, loop := .inl loop } where
  tallies := h.tallies.flush
  burst_pos := by
    rw [Drain.burst_flush]
    exact h.burst_pos
  burst_lt := by
    rw [Drain.burst_flush]
    exact h.burst_lt
  loop := .inl ⟨loop, rfl⟩

theorem Serves.setLoop (h : c.Serves taken) (loop : LoopState) :
    Serves taken { c with loop := .inl loop } :=
  { h with loop := .inl ⟨loop, rfl⟩ }

/-- A loop that ends well hands on what is pending. -/
theorem Serves.finish (h : c.Serves taken) (report : LoopReport) :
    Serves taken { c with drain := c.drain.flush countHandles, loop := .inr (.ok report) } :=
  { h.flush .initial with loop := .inr ⟨⟨report, rfl⟩, Drain.pending_flush countHandles _⟩ }

/-- One move, whatever the switch: what leaves the ring is taken. -/
theorem Serves.advance (h : c.Serves taken) (stop : StopSwitch) {ring : Ring} {q : RecordQueue}
    (hq : ring.Represents q) (hwidth : q.width = handleSize) :
    ∃ n ≤ q.records.length,
      (c.advance stop ring).1.Represents { q with records := q.records.drop n } ∧
      (c.advance stop ring).2.Serves (taken + n) := by
  obtain ⟨interval, drain, loop⟩ := c
  obtain ⟨s, rfl⟩ | ⟨⟨report, rfl⟩, -⟩ := h.loop
  · obtain ⟨point, iterations, flushes⟩ := s
    cases point with
    | step =>
        obtain ⟨n, hn, hring, htallies, hburst⟩ :=
          h.tallies.step h.burst_pos h.burst_lt hq hwidth
        exact ⟨n, hn, hring, htallies, hburst ▸ h.burst_pos, hburst ▸ h.burst_lt,
          .inl ⟨_, rfl⟩⟩
    | flush => exact ⟨0, Nat.zero_le _, hq, h.flush _⟩
    | control =>
        -- The callback looks at the switch and never answers with a failure.
        obtain ⟨raised⟩ := stop
        cases raised with
        | true => exact ⟨0, Nat.zero_le _, hq, h.finish _⟩
        | false => exact ⟨0, Nat.zero_le _, hq, h.setLoop _⟩
    | check =>
        obtain ⟨raised⟩ := stop
        cases raised with
        | true => exact ⟨0, Nat.zero_le _, hq, h.finish _⟩
        | false => exact ⟨0, Nat.zero_le _, hq, h.setLoop _⟩
  · exact ⟨0, Nat.zero_le _, hq, h⟩

/-- A consumer that is over has ended well and handed everything on. -/
theorem Serves.ended (h : c.Serves taken) (hover : c.isOver = true) :
    ∃ report, c.loop = .inr (.ok report) ∧ c.drain.pending = #[] := by
  obtain ⟨state, hloop⟩ | ⟨⟨report, hloop⟩, hpending⟩ := h.loop
  · rw [isOver, hloop] at hover
    cases hover
  · exact ⟨report, hloop, hpending⟩

end Consumer

end BurstRing
