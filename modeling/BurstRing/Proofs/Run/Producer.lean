import BurstRing.Proofs.Cache.Custody
import BurstRing.Run.Producer

/-!
# A producer and the book of its cache

A producer only refills its cache and forwards from it.  So the moves of a producer come down to
operations on its cache (`Producer.ops`), and the same operations on the audited cache keep a book
of what the producer has generated, forwarded and released.

`Producer.Keeps` says what is in the book: the handles from zero on, as many as the refills have
asked for, of which the first ones have been forwarded, as many as the producer has counted.  On a
ring of handles at rest every move keeps this up, as long as the count of the source does not wrap
(`Producer.Keeps.advance`), and so no refill and no forward fails.
-/

namespace BurstRing

/-! ### Handles in a row -/

theorem toUInt64_add (m n : Nat) : (m + n).toUInt64 = m.toUInt64 + n.toUInt64 :=
  UInt64.ofNat_add m n

theorem toNat_add_toUInt64 {a : UInt64} {n : Nat} (h : a.toNat + n < UInt64.size) :
    (a + n.toUInt64).toNat = a.toNat + n := by
  have hn : n.toUInt64.toNat = n := UInt64.toNat_ofNat_of_lt' (by omega)
  rw [UInt64.toNat_add, hn]
  exact Nat.mod_eq_of_lt h

namespace SyntheticSource

/-- The handles `0, 1, ..`, so many of them. -/
def first (n : Nat) : List UInt64 := (List.range n).map Nat.toUInt64

@[simp] theorem length_first (n : Nat) : (first n).length = n := by
  rw [first, List.length_map, List.length_range]

theorem take_first {m n : Nat} (h : m ≤ n) : (first n).take m = first m := by
  rw [first, ← List.map_take, List.take_range, Nat.min_eq_left h, first]

/-- A burst goes on where the last one ended. -/
theorem first_append_handles {next : UInt64} {n : Nat} (h : next.toNat + n < UInt64.size) :
    first next.toNat ++ (handles next (next + n.toUInt64)).toList = first (next.toNat + n) := by
  rw [handles, toNat_add_toUInt64 h, Nat.add_sub_cancel_left, Array.toList_map,
    Array.toList_range, first, first, List.range_add, List.map_append, List.map_map]
  refine congrArg _ (List.map_congr_left fun i _ => ?_)
  rw [Function.comp_apply, toUInt64_add]
  exact congrArg (· + i.toUInt64) UInt64.ofNat_toNat.symm

theorem size_handles {next : UInt64} {n : Nat} (h : next.toNat + n < UInt64.size) :
    (handles next (next + n.toUInt64)).size = n := by
  rw [handles, toNat_add_toUInt64 h, Nat.add_sub_cancel_left, Array.size_map, Array.size_range]

theorem releaseAll_eq (hs : List UInt64) :
    ∀ s : SyntheticSource, BurstSource.releaseAll hs s =
      { s with released := s.released + hs.length.toUInt64 } := by
  induction hs with
  | nil => intro s; exact congrArg (SyntheticSource.mk s.id s.next) (UInt64.add_zero _).symm
  | cons h hs ih =>
      intro s
      have hone : s.released + (hs.length + 1).toUInt64 =
          s.released + 1 + hs.length.toUInt64 := by
        rw [toUInt64_add hs.length 1]
        ac_rfl
      rw [List.length_cons, hone]
      exact ih (BurstSource.release h s)

/-- Asked in its own name for as many handles as it can still count, a source makes them up. -/
theorem receive_eq {s : SyntheticSource} {source : SourceId} {channel : ChannelId}
    (hsource : source = s.id) (hchannel : channel.value = 0) (held max : Nat) :
    receive source channel held max s =
      (⟨handles s.next (s.next + max.toUInt64), .ok max⟩,
        { s with next := s.next + max.toUInt64 }) := by
  rw [receive, if_neg (not_not.mpr hsource), if_neg (not_not.mpr hchannel)]

end SyntheticSource

/-! ### What a move does to the cache -/

@[simp] theorem Audited.note_nil {σ : Type} (s : Audited σ) : s.note [] = s := by
  rw [note, List.append_nil]

def CacheOp.isRefill : CacheOp → Bool
  | .refill => true
  | _ => false

/-- Number of refills among `ops`. -/
def CacheOp.refills (ops : List CacheOp) : Nat := ops.countP isRefill

theorem CacheOp.refills_append (ops ops' : List CacheOp) :
    refills (ops ++ ops') = refills ops + refills ops' :=
  List.countP_append

/-- What the producer does to its cache in its next move. -/
def Producer.ops (ring : Ring) (p : Producer) : List CacheOp :=
  match p.phase with
  | .work =>
    if p.cache.isExhausted then
      match p.cache.refill.1 with
      | .ok _ => [.refill, .forward ring]
      | .error _ => [.refill]
    else [.forward ring]
  | _ => []

namespace ReceiveCache

theorem runNoted_append {σ : Type} [BurstSource σ] (ops ops' : List CacheOp) :
    ∀ c : ReceiveCache (Audited σ),
      (runNoted (ops ++ ops') c).2 = (runNoted ops' (runNoted ops c).2).2 := by
  induction ops with
  | nil => intro c; rfl
  | cons op ops ih => intro c; exact ih _

theorem runNoted_refill {σ : Type} [BurstSource σ] (c : ReceiveCache (Audited σ)) :
    (runNoted [.refill] c).2 = c.refill.2 := by
  change ({ c.refill.2 with source := c.refill.2.source.note [] } : ReceiveCache (Audited σ)) = _
  rw [Audited.note_nil]

section

variable {σ : Type} {c : ReceiveCache (Audited σ)}

/-- What a forward reports is how far the cursor moves on. -/
theorem forward_cursor {c : ReceiveCache σ} {ring : Ring} {n : Nat}
    (hn : (c.forward ring).1 = .ok n) :
    (c.forward ring).2.1 = { c with cursor := c.cursor + n } := by
  rw [forward] at hn ⊢
  split at hn
  · rename_i hdone
    cases hn
    rw [if_pos hdone]
    rfl
  · rename_i hdone
    rw [if_neg hdone]
    split at hn
    · cases hn
      rfl
    · cases hn

theorem runNoted_forward [BurstSource σ] {ring : Ring} {n : Nat}
    (hn : (c.forward ring).1 = .ok n) :
    (runNoted [.forward ring] c).2 = { c with
      cursor := c.cursor + n,
      source := c.source.note ((c.unread.take n).map .accepted) } := by
  change ({ (c.forward ring).2.1 with
    source := (c.forward ring).2.1.source.note
      ((CacheReply.forwarded (c.forward ring).1 (c.forward ring).2.2).departures c.unread)
    } : ReceiveCache (Audited σ)) = _
  rw [forward_cursor hn, hn]
  rfl

theorem Accounted.isExhausted_iff (h : c.Accounted) : c.isExhausted = true ↔ c.unread = [] := by
  have hle := h.cursor_le
  rw [isExhausted, beq_iff_eq, ← List.length_eq_zero_iff, length_unread, remaining]
  omega

/-- Into a ring of handles at rest a forward does not fail: the ring takes in the first unread
handles. -/
theorem Sound.forward_ok (h : c.Sound) {ring : Ring} {q : RecordQueue}
    (hq : ring.Represents q) (hwidth : q.width = handleSize) :
    ∃ n ≤ c.unread.length, (c.forward ring).1 = .ok n ∧
      (c.forward ring).2.2.Represents
        { q with records := q.records ++ (c.unread.take n).map Handle.record } := by
  by_cases hdone : c.isExhausted = true
  · refine ⟨0, Nat.zero_le _, ?_, ?_⟩ <;> rw [ReceiveCache.forward, if_pos hdone]
    rw [List.take_zero, List.map_nil, List.append_nil]
    exact hq
  · have hsome : c.unread.length ≠ 0 := fun hnone =>
      hdone (h.isExhausted_iff.mpr (List.length_eq_zero_iff.mp hnone))
    have hstore := h.forward_store hdone hq
    rw [RecordQueue.store, RecordQueue.refusal?_handles hwidth hsome] at hstore
    refine ⟨_, ?_, hstore.1, ?_⟩
    · rw [List.length_map]
      exact Behavior.share_le_wanted _ _ _
    · rw [List.map_take]
      exact hstore.2

end

/-- A refill of an exhausted cache that asks in the name of its source gets all it asks for. -/
theorem refill_eq {c : ReceiveCache (Audited SyntheticSource)} (hunread : c.unread = [])
    (hsource : c.header.source = c.source.inner.id) (hchannel : c.header.channel.value = 0)
    (hfew : c.source.inner.next.toNat + c.size < UInt64.size) :
    let next := c.source.inner.next + c.size.toUInt64
    let burst := SyntheticSource.handles c.source.inner.next next
    c.refill = (.ok c.size, { c with
      source := ⟨{ c.source.inner with next }, c.source.appended ++ burst.toList,
        c.source.departed⟩,
      buffer := burst, cursor := 0 }) := by
  intro next burst
  have hdiscard : c.discard = { c with buffer := #[], cursor := 0 } := by
    rw [discard, releaseUnread_eq, hunread, List.map_nil, List.append_nil]
    rfl
  have hreceive : SyntheticSource.receive c.header.source c.header.channel 0 c.size c.source.inner =
      (⟨burst, .ok c.size⟩, { c.source.inner with next }) :=
    SyntheticSource.receive_eq hsource hchannel 0 c.size
  have hsize : burst.size = c.size := SyntheticSource.size_handles hfew
  have hkept : violation? c.size c.size (.ok c.size) = none := by
    rw [violation?, if_neg (Nat.lt_irrefl _), if_neg (not_not.mpr rfl)]
  simp only [refill, hdiscard, BurstSource.receive, length, List.size_toArray, List.length_nil,
    hreceive, Array.empty_append, hsize, hkept]

end ReceiveCache

/-! ### The book -/

namespace Producer

open ReceiveCache

/-- A producer has refilled its cache of `size` handles `refills` times, and `b` is the cache with
its book. -/
structure Keeps (size refills : Nat) (b : ReceiveCache (Audited SyntheticSource)) (p : Producer) :
    Prop where
  sound : b.Sound
  size_eq : b.size = size
  source : b.header.source = b.source.inner.id
  channel : b.header.channel.value = 0
  generated : b.source.inner.next.toNat = refills * size
  appended : b.source.appended = SyntheticSource.first (refills * size)
  departed : b.source.departed = (SyntheticSource.first p.forwarded.toNat).map .accepted
  returned : b.source.inner.released = 0
  cache : p.cache = b.erase
  phase : p.phase = .poll ∨ p.phase = .work ∨
    p.phase = .done ⟨b.source.inner.next, p.forwarded, b.unread.length.toUInt64⟩

variable {size refills : Nat} {b : ReceiveCache (Audited SyntheticSource)} {p : Producer}

/-- A producer that has not begun has an empty book. -/
theorem create_ok {memory : Memory} (hmemory : ∀ bytes, memory.grants bytes = true) (id : SourceId)
    {config : CacheConfig} (hsize : config.size ≠ 0) :
    ∃ p, create memory id config = .ok p ∧ p.Keeps config.size.toNat 0 p.cache.audited ∧
      p.forwarded = 0 := by
  have hcache : ReceiveCache.create memory (SyntheticSource.starting id)
      (CacheHeader.ofIds id ⟨0⟩) config.size config.locality =
        .ok ⟨.ofIds id ⟨0⟩, .starting id, #[], config.size.toNat, 0, config.locality⟩ := by
    rw [ReceiveCache.create, if_neg hsize, if_pos (hmemory _)]
  refine ⟨_, by rw [create, hcache]; rfl, ?_, rfl⟩
  exact {
    sound := sound_create hcache
    size_eq := rfl
    source := rfl
    channel := rfl
    generated := (Nat.zero_mul _).symm
    appended := by rw [Nat.zero_mul]; rfl
    departed := rfl
    returned := rfl
    cache := rfl
    phase := .inl rfl }

/-- What has not been forwarded is unread. -/
theorem Keeps.first_eq (h : p.Keeps size refills b) :
    SyntheticSource.first (refills * size) =
      SyntheticSource.first p.forwarded.toNat ++ b.unread := by
  have hbalance := h.sound.balance
  rw [h.appended, h.departed, Departure.map_handle_accepted] at hbalance
  exact hbalance

theorem Keeps.count_eq (h : p.Keeps size refills b) :
    p.forwarded.toNat + b.unread.length = refills * size := by
  have hlen := congrArg List.length h.first_eq
  rw [List.length_append, SyntheticSource.length_first, SyntheticSource.length_first] at hlen
  exact hlen.symm

theorem Keeps.isExhausted_iff (h : p.Keeps size refills b) :
    p.cache.isExhausted = true ↔ b.unread = [] := by
  rw [h.cache]
  exact h.sound.isExhausted_iff

/-- Refilling an exhausted cache. -/
theorem Keeps.replenish (h : p.Keeps size refills b) (hphase : p.phase = .work)
    (hdone : p.cache.isExhausted = true) (hfew : (refills + 1) * size < UInt64.size) :
    ∃ changed p', p.cache.refill.1 = .ok size ∧ p.replenish = (.ok changed, p') ∧
      p'.forwarded = p.forwarded ∧ p'.Keeps size (refills + 1) (runNoted [.refill] b).2 := by
  have hnext : b.source.inner.next.toNat + b.size = (refills + 1) * size := by
    rw [h.generated, h.size_eq, Nat.succ_mul]
  have hfew' : b.source.inner.next.toNat + b.size < UInt64.size := hnext ▸ hfew
  have hrefill := refill_eq (h.isExhausted_iff.mp hdone) h.source h.channel hfew'
  -- What holds of the cache with the book holds of the producer's cache without it.
  have hcache : p.cache.refill = (.ok size, b.refill.2.erase) := by
    rw [h.cache]
    exact Prod.ext (b.erase_refill.1.symm.trans (by rw [hrefill, h.size_eq]))
      b.erase_refill.2.symm
  refine ⟨(p.refills + 1) % linkFlapPeriod == 0,
    { p with cache := b.refill.2.erase, refills := p.refills + 1 },
    congrArg Prod.fst hcache, ?_, rfl, ?_⟩
  · rw [Producer.replenish, if_pos hdone, hcache]
  · have hsound := h.sound.refill
    rw [runNoted_refill]
    rw [hrefill] at hsound ⊢
    exact {
      sound := hsound
      size_eq := h.size_eq
      source := h.source
      channel := h.channel
      generated := (toNat_add_toUInt64 hfew').trans hnext
      appended := by
        rw [h.appended, ← h.generated, SyntheticSource.first_append_handles hfew', hnext]
      departed := h.departed
      returned := h.returned
      cache := rfl
      phase := .inr (.inl hphase) }

/-- Forwarding into a ring of handles at rest. -/
theorem Keeps.forward (h : p.Keeps size refills b) {ring : Ring} {q : RecordQueue}
    (hq : ring.Represents q) (hwidth : q.width = handleSize) :
    ∃ records, (p.forward ring).1.Represents { q with records := q.records ++ records } ∧
      (p.forward ring).2.forwarded.toNat = p.forwarded.toNat + records.length ∧
      (p.forward ring).2.Keeps size refills (runNoted [.forward ring] b).2 := by
  obtain ⟨n, hn, houtcome, hring⟩ := h.sound.forward_ok hq hwidth
  have hcursor := forward_cursor houtcome
  obtain ⟨hsame, hcache, hrings⟩ := b.erase_forward ring
  rw [← h.cache] at hsame hcache hrings
  have hforward : p.forward ring = ((b.forward ring).2.2, { p with
      cache := (b.forward ring).2.1.erase, forwarded := p.forwarded + n.toUInt64,
      phase := .poll }) := by
    have hwhole : p.cache.forward ring =
        (.ok n, (b.forward ring).2.1.erase, (b.forward ring).2.2) :=
      Prod.ext (hsame.symm.trans houtcome) (Prod.ext hcache.symm hrings.symm)
    rw [Producer.forward, hwhole]
  -- No more is counted than has been generated, so the counter does not wrap.
  have hle : p.forwarded.toNat + n ≤ refills * size := by
    have := h.count_eq
    omega
  have hcount : (p.forwarded + n.toUInt64).toNat = p.forwarded.toNat + n :=
    toNat_add_toUInt64 (hle.trans_lt (h.generated ▸ b.source.inner.next.toNat_lt))
  have hsplit : SyntheticSource.first (p.forwarded.toNat + n) =
      SyntheticSource.first p.forwarded.toNat ++ b.unread.take n := by
    rw [← SyntheticSource.take_first hle, h.first_eq, List.take_append,
      SyntheticSource.length_first, Nat.add_sub_cancel_left,
      List.take_of_length_le (by rw [SyntheticSource.length_first]; omega)]
  rw [hforward, runNoted_forward houtcome]
  refine ⟨_, hring, ?_, ?_⟩
  · rw [List.length_map, List.length_take, Nat.min_eq_left hn]
    exact hcount
  exact {
    sound := h.sound.note hn (Departure.map_handle_accepted _)
    size_eq := h.size_eq
    source := h.source
    channel := h.channel
    generated := h.generated
    appended := h.appended
    departed := by
      change b.source.departed ++ (b.unread.take n).map .accepted = _
      rw [hcount, hsplit, h.departed, List.map_append]
    returned := h.returned
    cache := by rw [hcursor]; rfl
    phase := .inl rfl }

/-- Closing the cache releases what is unread. -/
theorem Keeps.retire (h : p.Keeps size refills b) : p.retire.Keeps size refills b := by
  -- The drop behind the close finds nothing to release, so each handle is counted once.
  have hsource : p.cache.close.2 =
      { b.source.inner with released := b.unread.length.toUInt64 } := by
    rw [h.cache, ← b.erase_close.2, close_eq, drop_eq]
    change BurstSource.releaseAll b.unread b.source.inner = _
    rw [SyntheticSource.releaseAll_eq, h.returned, UInt64.zero_add]
  refine { h with phase := .inr (.inr ?_) }
  change ProducerPhase.done ⟨p.cache.source.next, p.forwarded, p.cache.close.2.released⟩ = _
  rw [hsource, h.cache]
  rfl

theorem Keeps.setPhase (h : p.Keeps size refills b) {phase : ProducerPhase}
    (hphase : phase = .poll ∨ phase = .work) : Keeps size refills b { p with phase } :=
  { h with phase := hphase.imp_right .inl }

theorem Keeps.done (h : p.Keeps size refills b) (hover : p.isOver = true) :
    ∃ stats, p.phase = .done stats := by
  obtain hphase | hphase | hphase := h.phase
  · rw [isOver, hphase] at hover
    cases hover
  · rw [isOver, hphase] at hover
    cases hover
  · exact ⟨_, hphase⟩

/-- The figures of a producer that is over. -/
theorem Keeps.stats (h : p.Keeps size refills b) {stats : ProducerStats}
    (hdone : p.phase = .done stats) :
    stats.generated.toNat = refills * size ∧ stats.forwarded = p.forwarded ∧
      stats.released.toNat = b.unread.length := by
  obtain hphase | hphase | hphase := h.phase
  · cases hphase.symm.trans hdone
  · cases hphase.symm.trans hdone
  · cases hphase.symm.trans hdone
    have hcount := h.count_eq
    have hlt := b.source.inner.next.toNat_lt
    rw [h.generated] at hlt
    exact ⟨h.generated, rfl, UInt64.toNat_ofNat_of_lt' ((by omega : _ ≤ _).trans_lt hlt)⟩

section

variable {ring : Ring} {q : RecordQueue}

/-- A move at work with an exhausted cache: a refill and a forward. -/
theorem Keeps.advance_exhausted (h : p.Keeps size refills b) (hphase : p.phase = .work)
    (hdone : p.cache.isExhausted = true) (stop : StopSwitch) (hq : ring.Represents q)
    (hwidth : q.width = handleSize) (hfew : (refills + 1) * size < UInt64.size) :
    p.ops ring = [.refill, .forward ring] ∧ ∃ records,
      (p.advance stop ring).2.1.Represents { q with records := q.records ++ records } ∧
      (p.advance stop ring).2.2.forwarded.toNat = p.forwarded.toNat + records.length ∧
      (p.advance stop ring).2.2.Keeps size (refills + 1)
        (runNoted [.refill, .forward ring] b).2 := by
  obtain ⟨changed, p', hrefill, hreplenish, hcount, h'⟩ := h.replenish hphase hdone hfew
  obtain ⟨records, hring, hforwarded, h''⟩ := h'.forward hq hwidth
  have hmove : p.advance stop ring = (changed, p'.forward ring) := by
    rw [Producer.advance, hphase]
    dsimp only
    rw [hreplenish]
  rw [hmove, ← List.singleton_append, runNoted_append]
  refine ⟨?_, records, hring, hcount ▸ hforwarded, h''⟩
  rw [ops, hphase]
  dsimp only
  rw [if_pos hdone, hrefill]
  rfl

/-- A move at work with something unread: a forward. -/
theorem advance_unread (hphase : p.phase = .work) (hmore : ¬ p.cache.isExhausted = true)
    (stop : StopSwitch) (ring : Ring) :
    p.ops ring = [.forward ring] ∧ p.advance stop ring = (false, p.forward ring) := by
  rw [ops, Producer.advance, hphase]
  dsimp only
  rw [Producer.replenish, if_neg hmore, if_neg hmore]
  exact ⟨rfl, rfl⟩

/-- One move, whatever the switch: the ring takes in as many records as the producer counts, and
what it does to its cache is entered in the book. -/
theorem Keeps.advance (h : p.Keeps size refills b) (stop : StopSwitch) (hq : ring.Represents q)
    (hwidth : q.width = handleSize)
    (hfew : (refills + CacheOp.refills (p.ops ring)) * size < UInt64.size) :
    ∃ records,
      (p.advance stop ring).2.1.Represents { q with records := q.records ++ records } ∧
      (p.advance stop ring).2.2.forwarded.toNat = p.forwarded.toNat + records.length ∧
      (p.advance stop ring).2.2.Keeps size (refills + CacheOp.refills (p.ops ring))
        (runNoted (p.ops ring) b).2 := by
  obtain hphase | hphase | hphase := h.phase
  · have hops : p.ops ring = [] := by rw [ops, hphase]
    rw [Producer.advance, hphase, hops]
    refine ⟨[], by rwa [List.append_nil], ?_, ?_⟩
    · dsimp only
      split <;> rfl
    · dsimp only
      split
      · exact h.retire
      · exact h.setPhase (.inr rfl)
  · by_cases hdone : p.cache.isExhausted = true
    · -- A refill that failed would be the only one all the same.
      have hone : CacheOp.refills (p.ops ring) = 1 := by
        rw [ops, hphase]
        dsimp only
        rw [if_pos hdone]
        split <;> rfl
      rw [hone] at hfew ⊢
      obtain ⟨hops, hmove⟩ := h.advance_exhausted hphase hdone stop hq hwidth hfew
      rw [hops]
      exact hmove
    · obtain ⟨hops, hmove⟩ := advance_unread hphase hdone stop ring
      rw [hmove, hops]
      exact h.forward hq hwidth
  · have hops : p.ops ring = [] := by rw [ops, hphase]
    have hstay : p.advance stop ring = (false, ring, p) := by rw [Producer.advance, hphase]
    rw [hstay, hops]
    exact ⟨[], by rwa [List.append_nil], rfl, h⟩

end

end Producer

end BurstRing
