import BurstRing.Proofs.Run.Outset

/-!
# The accounts of a session close

`Session.accounts_close` puts together how a session begins, what its moves keep in balance and how
it ends.  It is about every checked configuration, every number of producers that the command
takes, and every schedule, which may raise the switch at any moment or not at all.
-/

namespace BurstRing

open ReceiveCache

/-- What a producer has done, where `ops` is what has been done to its cache since it was as in
`begun`: the handles from zero on have been generated, and the first of them have been forwarded, as
many as counted.  Closing the cache releases each of the others, and a producer that is over has
closed it. -/
structure Producer.Accounts (size : Nat) (ops : List CacheOp) (p begun : Producer) : Prop where
  cache : p.cache = (runNoted ops begun.cache.audited).2.erase
  forwarded_le : p.forwarded.toNat ≤ CacheOp.refills ops * size
  generated : (runNoted ops begun.cache.audited).2.source.appended =
    SyntheticSource.first (CacheOp.refills ops * size)
  forwarded : (runNoted ops begun.cache.audited).2.source.departed =
    (SyntheticSource.first p.forwarded.toNat).map .accepted
  close : p.cache.close = (CacheOp.refills ops * size - p.forwarded.toNat,
    (runNoted ops begun.cache.audited).2.drop.inner)
  closed : (runNoted ops begun.cache.audited).2.drop.departed =
    (SyntheticSource.first p.forwarded.toNat).map .accepted ++
      ((SyntheticSource.first (CacheOp.refills ops * size)).drop p.forwarded.toNat).map .released
  stats : ∀ stats, p.stats? = some stats →
    stats.generated.toNat = CacheOp.refills ops * size ∧ stats.forwarded = p.forwarded ∧
      stats.released.toNat = CacheOp.refills ops * size - p.forwarded.toNat

theorem Producer.phase_of_stats? {p : Producer} {stats : ProducerStats}
    (h : p.stats? = some stats) : p.phase = .done stats := by
  rw [stats?] at h
  split at h
  · rename_i hphase
    rw [hphase, Option.some.inj h]
  · cases h

theorem Producer.Keeps.accounts {size : Nat} {ops : List CacheOp} {begun p : Producer}
    (h : p.Keeps size (CacheOp.refills ops) (runNoted ops begun.cache.audited).2) :
    p.Accounts size ops begun where
  cache := h.cache
  forwarded_le := h.count_eq ▸ Nat.le_add_right _ _
  generated := h.appended
  forwarded := h.departed
  close := by
    obtain ⟨hcount, hsource⟩ := (runNoted ops begun.cache.audited).2.erase_close
    rw [close_eq] at hcount hsource
    rw [← h.count_eq, Nat.add_sub_cancel_left, h.cache]
    exact Prod.ext hcount.symm hsource.symm
  closed := by
    rw [drop_eq, h.first_eq, List.drop_left' (SyntheticSource.length_first _), h.departed]
  stats := by
    intro stats hstats
    obtain ⟨hgenerated, hforwarded, hreleased⟩ := h.stats (phase_of_stats? hstats)
    have hcount := h.count_eq
    exact ⟨hgenerated, hforwarded, by omega⟩

namespace Session

/-- No worker has failed, and the next dequeue of the consumer does not either. -/
structure Unbroken (s : Session) : Prop where
  producers : ∀ p ∈ s.producers, (∀ cause, p.phase ≠ .starved cause) ∧
    ∀ cause, p.phase ≠ .blocked cause
  consumer : ∀ cause, s.consumer.loop ≠ .inr (.error cause)
  dequeue : ∃ n, (s.ring.dequeue (Array.replicate s.consumer.drain.burst 0) .burst).1 = .ok n

theorem Balanced.unbroken {size : Nat} {begun : Array Producer} {ops : Nat → List CacheOp}
    {s : Session} (h : s.Balanced size begun ops) : s.Unbroken := by
  obtain ⟨q, taken, hring, hwidth, hserves, -⟩ := h.balance
  have hsize : (Array.replicate s.consumer.drain.burst (0 : UInt64)).size =
      s.consumer.drain.burst := Array.size_replicate
  obtain ⟨n, -, -, hdequeue, -⟩ := hring.dequeue_ok hwidth (hsize.trans_ne hserves.burst_pos)
    (hsize.trans_lt hserves.burst_lt)
  refine ⟨fun p hp => ?_, fun cause hcause => ?_, n, hdequeue⟩
  · obtain ⟨refills, b, hkeeps⟩ := h.keeps_of_mem (Array.mem_toList_iff.mpr hp)
    obtain hphase | hphase | hphase := hkeeps.phase <;> rw [hphase] <;>
      exact ⟨fun _ => nofun, fun _ => nofun⟩
  · obtain ⟨state, hloop⟩ | ⟨⟨report, hloop⟩, -⟩ := hserves.loop <;> cases hloop.symm.trans hcause

/-- **The accounts of a session close.**  A checked configuration with a ring of handles begins a
session of as many producers as the command takes.  After any schedule in which no producer asks
for `2 ^ 64` handles: no worker has failed; every producer has generated the handles from zero on,
forwarded the first of them and kept the others, which it releases when it closes its cache; what
all have forwarded has been delivered, is pending or is in the ring; and if all workers are over,
the accounts are there and close.  Raising the switch and waiting ends the session, by a schedule
like any other. -/
theorem accounts_close {settings : Settings} {config : Config} {memory : Memory}
    {producers : UInt64} (hconfig : settings.validate = .ok config)
    (hadmits : Admits config producers) (haffords : Affords memory config) :
    ∃ s, prepare memory config producers = .ok s ∧ s.producers.size = producers.toNat ∧
      ∀ schedule : List SessionMove,
        (∀ i < producers.toNat, CacheOp.refills (s.cacheHistory i schedule) *
          config.cache.size.toNat < UInt64.size) →
        let t := s.follow schedule
        t.Unbroken ∧
        (t.producers.size = producers.toNat ∧
          ∀ (i : Nat) (begun p : Producer), s.producers[i]? = some begun →
            t.producers[i]? = some p →
            p.Accounts config.cache.size.toNat (s.cacheHistory i schedule) begun) ∧
        (∃ delivered : Nat, t.consumer.delivered = delivered.toUInt64 ∧
          t.forwarded = delivered + t.consumer.drain.pending.size + t.ring.count) ∧
        (t.isOver = true → ∃ r, t.report = .ok r ∧ r.closes = true) ∧
        t.conclude.isOver = true ∧ ∃ rest, t.conclude = t.follow (.stop :: rest) := by
  obtain ⟨s, hprepare, hsize, hbegun⟩ :=
    prepare_ok (Settings.checked_of_validate hconfig) hadmits haffords
  refine ⟨s, hprepare, hsize, fun schedule hfew => ?_⟩
  rw [← hsize] at hfew
  have hbalanced := hbegun.follow schedule hfew
  obtain ⟨q, taken, hring, -, hserves, hbalance⟩ := hbalanced.balance
  obtain ⟨delivered, hsink, htaken⟩ := hserves.tallies.balance
  refine ⟨hbalanced.unbroken, ⟨hbalanced.size_eq.trans hsize, fun i begun p hbegun hp =>
    (hbalanced.keeps i begun p hbegun hp).accounts⟩, ⟨delivered, hsink, ?_⟩,
    hbalanced.report_closes, isOver_conclude hbalanced.subscribed, conclude_eq_follow _⟩
  rw [hbalance, htaken, hring.count_eq]

/-- A ring for four handles and caches for three. -/
def narrowSettings : Settings where
  rings := [⟨"rx", 4, 8, .multi, .single⟩]
  pipeline := ⟨2, 2⟩
  cache := ⟨3, none⟩

/-- The same, checked. -/
def narrowConfig : Config where
  rings := [⟨⟨"rx", by decide⟩, 4, 8, .multi, .single⟩]
  pipeline := ⟨⟨2, by decide⟩, 2⟩
  cache := ⟨3, .any⟩

/-- Two producers have more than the ring holds, and the switch is raised while the first is at work
and the consumer has handles pending. -/
def interrupted : List SessionMove :=
  [.producer 0, .producer 0, .producer 1, .producer 1, .consumer, .producer 0, .stop, .consumer,
    .consumer, .producer 1, .producer 0, .consumer, .producer 0]

theorem accounts_close_interrupted :
    ∃ s r, prepare ⟨fun _ => true⟩ narrowConfig 2 = .ok s ∧
      (s.follow interrupted).report = .ok r ∧ r.closes = true ∧
      (r.generated, r.forwarded, r.released, r.delivered, r.left) = (9, 7, 2, 4, 3) := by
  have hconfig : narrowSettings.validate = .ok narrowConfig := rfl
  have hadmits : Admits narrowConfig 2 :=
    ⟨by decide, by decide, _, rfl, fun _ => rfl⟩
  have haffords : Affords ⟨fun _ => true⟩ narrowConfig := ⟨fun _ => rfl, by decide⟩
  obtain ⟨s, hs, -, hall⟩ := accounts_close hconfig hadmits haffords
  have hrun : (match prepare ⟨fun _ => true⟩ narrowConfig 2 with
      | .ok s => CacheOp.refills (s.cacheHistory 0 interrupted) == 2 &&
          CacheOp.refills (s.cacheHistory 1 interrupted) == 1 &&
          (s.follow interrupted).isOver &&
          (s.follow interrupted).report.toOption == some ⟨⟨2, 1, .control⟩, 9, 7, 2, 4, 3⟩
      | .error _ => false) = true := by
    decide +kernel
  rw [hs] at hrun
  simp only [Bool.and_eq_true, beq_iff_eq] at hrun
  obtain ⟨⟨⟨hfirst, hsecond⟩, hover⟩, hfigures⟩ := hrun
  have hfew : ∀ i < (2 : UInt64).toNat, CacheOp.refills (s.cacheHistory i interrupted) *
      narrowConfig.cache.size.toNat < UInt64.size := by
    intro i hi
    obtain rfl | rfl : i = 0 ∨ i = 1 := by
      change i < 2 at hi
      omega
    · rw [hfirst]
      decide
    · rw [hsecond]
      decide
  obtain ⟨-, -, -, hreport, -⟩ := hall interrupted hfew
  obtain ⟨r, hr, hcloses⟩ := hreport hover
  rw [hr] at hfigures
  obtain rfl := Option.some.inj hfigures
  exact ⟨s, _, hs, hr, hcloses, rfl⟩

end Session

end BurstRing
