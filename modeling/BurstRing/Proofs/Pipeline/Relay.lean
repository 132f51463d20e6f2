import BurstRing.Proofs.Run.Consumer

/-!
# From a cache to a sink

A cache forwards into a ring, and a drain takes from the ring and hands batches to a sink.  Between
them a handle may wait in three places, unread in the cache, in the ring or pending in the drain.
A `Relay` is all of them, and its operations come in any order.

`Relay.Carries` says that nothing is lost, doubled or overtaken on the way: what the sink has
received, what is pending and what is in the ring are in a row the handles that the ring has
accepted, which the book of the audited cache lists in the order in which the source appended them.
The main statement is `Relay.delivered_in_order`.
-/

namespace BurstRing

open ReceiveCache

/-! ### What the book tells of the ring -/

namespace Departure

/-- Handles that a ring accepted, in order. -/
def forwarded (departures : List Departure) : List UInt64 :=
  departures.filterMap fun
    | .accepted handle => some handle
    | .taken _ | .released _ => none

/-- Nothing but the order of all departures goes into it. -/
theorem forwarded_sublist (departures : List Departure) :
    (forwarded departures).Sublist (departures.map handle) := by
  induction departures with
  | nil => exact .slnil
  | cons departure departures ih =>
      cases departure with
      | accepted handle => exact ih.cons_cons handle
      | taken handle | released handle => exact ih.cons handle

@[simp] theorem forwarded_append (ds ds' : List Departure) :
    forwarded (ds ++ ds') = forwarded ds ++ forwarded ds' :=
  List.filterMap_append

@[simp] theorem forwarded_map_accepted (handles : List UInt64) :
    forwarded (handles.map .accepted) = handles := by
  simp [forwarded, List.filterMap_map]

@[simp] theorem forwarded_map_released (handles : List UInt64) :
    forwarded (handles.map .released) = [] := by
  simp [forwarded, List.filterMap_map]

end Departure

namespace ReceiveCache

variable {σ : Type} [BurstSource σ] (c : ReceiveCache (Audited σ))

theorem forwarded_drop : Departure.forwarded c.drop.departed =
    Departure.forwarded c.source.departed := by
  rw [drop_eq, Departure.forwarded_append, Departure.forwarded_map_released, List.append_nil]

theorem forwarded_discard : Departure.forwarded c.discard.source.departed =
    Departure.forwarded c.source.departed := c.forwarded_drop

/-- A refill gives back and appends, but the ring gets nothing. -/
theorem forwarded_refill : Departure.forwarded c.refill.2.source.departed =
    Departure.forwarded c.source.departed := by
  rw [refill]
  dsimp only
  split
  · rw [forwarded_discard]
    exact c.forwarded_discard
  · exact c.forwarded_discard

end ReceiveCache

/-! ### Drains -/

namespace Drain

/-- Handles that the sink has received, batch after batch. -/
def delivered (d : Drain (Array (Array UInt64))) : List UInt64 := d.sink.toList.flatMap Array.toList

variable {d : Drain (Array (Array UInt64))}

/-- A flush hands on all that is pending. -/
theorem delivered_flush (d : Drain (Array (Array UInt64))) :
    (d.flush keepBatches).delivered = d.delivered ++ d.pending.toList := by
  rw [flush]
  split
  · rename_i hempty
    rw [Array.isEmpty_iff.mp hempty, Array.toList_empty, List.append_nil]
  · simp [delivered, keepBatches]

/-- Whether or not they are handed on at once, handles gathered come last. -/
theorem delivered_gather (handles : Array UInt64) :
    (d.gather keepBatches handles).delivered ++ (d.gather keepBatches handles).pending.toList =
      d.delivered ++ d.pending.toList ++ handles.toList := by
  rw [gather]
  dsimp only
  split
  · rw [delivered_flush, pending_flush]
    simp [delivered]
  · simp [delivered]

/-- A step takes the oldest handles of the ring. -/
theorem step_ok (hpos : d.burst ≠ 0) (hlt : d.burst < UInt64.size) {ring : Ring}
    {handles : List UInt64} (hring : ring.Has handles) :
    (d.step keepBatches ring).1.Has (handles.drop d.burst) ∧
      (d.step keepBatches ring).2.delivered ++ (d.step keepBatches ring).2.pending.toList =
        d.delivered ++ d.pending.toList ++ handles.take d.burst ∧
      (d.step keepBatches ring).2.burst = d.burst := by
  obtain ⟨ring', hdequeue, hring'⟩ := hring.dequeue hpos hlt
  rw [step, hdequeue]
  dsimp only
  refine ⟨hring', ?_⟩
  split
  · rename_i hnone
    rw [List.length_eq_zero_iff.mp hnone, List.append_nil]
    exact ⟨rfl, rfl⟩
  · rw [delivered_gather, toList_extract_overwrite]
    exact ⟨rfl, burst_gather keepBatches d _⟩

end Drain

/-! ### Relays -/

/-- A cache, the ring into which it forwards and the drain of that ring.  A cache that has been
closed leaves its source behind. -/
structure Relay (σ : Type) where
  cache : ReceiveCache σ ⊕ σ
  line : DrainedRing (Array (Array UInt64))

inductive RelayOp where
  | refill
  | take
  | forward
  | setHeader (header : CacheHeader)
  | close
  /-- A step of the drain. -/
  | step
  /-- A flush of the drain. -/
  | flush

namespace Relay

variable {σ : Type} [BurstSource σ]

/-- Does one thing.  With a cache that has been closed there is nothing to do. -/
def act (r : Relay σ) : RelayOp → Relay σ
  | .refill => { r with cache := r.cache.map (fun c => c.refill.2) id }
  | .take => { r with cache := r.cache.map (fun c => c.take.2) id }
  | .setHeader header => { r with cache := r.cache.map (fun c => { c with header }) id }
  | .forward =>
    match r.cache with
    | .inl c =>
      let (_, c, ring) := c.forward r.line.ring
      ⟨.inl c, { r.line with ring }⟩
    | .inr _ => r
  | .close =>
    match r.cache with
    | .inl c => { r with cache := .inr c.close.2 }
    | .inr _ => r
  | .step => { r with line := r.line.runStep keepBatches }
  | .flush => { r with line := r.line.flush keepBatches }

/-- Does one thing after another. -/
def run (ops : List RelayOp) (r : Relay σ) : Relay σ := ops.foldl act r

/-- What an operation does to the cache. -/
def cacheOps (r : Relay σ) (op : RelayOp) : List CacheOp :=
  match r.cache, op with
  | .inl _, .refill => [.refill]
  | .inl _, .take => [.take]
  | .inl _, .forward => [.forward r.line.ring]
  | .inl _, .setHeader header => [.setHeader header]
  | _, _ => []

/-- What operations one after another do to the cache. -/
def cacheHistory : List RelayOp → Relay σ → List CacheOp
  | [], _ => []
  | op :: ops, r => r.cacheOps op ++ cacheHistory ops (r.act op)

/-- Handles that the sink has received. -/
def delivered (r : Relay σ) : List UInt64 := r.line.drain.delivered

/-- Handles taken from the ring and not handed on. -/
def pending (r : Relay σ) : List UInt64 := r.line.drain.pending.toList

/-- Handles in the ring. -/
def queued (r : Relay σ) : List UInt64 := r.line.ring.contents

/-- Handles unread in the cache. -/
def unread (r : Relay σ) : List UInt64 := r.cache.elim ReceiveCache.unread fun _ => []

def source (r : Relay σ) : σ := r.cache.elim ReceiveCache.source id

/-- The book, where `b` is the cache with its book before it was closed. -/
def book (r : Relay σ) (b : ReceiveCache (Audited σ)) : Audited σ :=
  r.cache.elim (fun _ => b.source) fun _ => b.drop

/-! ### On the way -/

/-- The cache is `b` without its book, the ring has `handles`, and what the sink has received, what
is pending and what is in the ring is what the book says was forwarded. -/
structure Carries (b : ReceiveCache (Audited σ)) (handles : List UInt64) (r : Relay σ) : Prop where
  sound : b.Sound
  cache : r.cache = .inl b.erase ∨ r.cache = .inr b.drop.inner
  burst_pos : r.line.drain.burst ≠ 0
  burst_lt : r.line.drain.burst < UInt64.size
  ring : r.line.ring.Has handles
  balance : r.delivered ++ r.pending ++ handles = Departure.forwarded b.source.departed

variable {b : ReceiveCache (Audited σ)} {handles : List UInt64} {r : Relay σ}

/-- Before anything is done, all is empty. -/
theorem carries_create {memory : Memory} {source : σ} {header : CacheHeader} {size : UInt64}
    {locality : Locality} {c : ReceiveCache σ}
    (hcache : ReceiveCache.create memory source header size locality = .ok c) {ring : Ring}
    (hring : ring.Has []) {burst : UInt64} {drain : Drain (Array (Array UInt64))}
    (hdrain : Drain.create ring burst.toNat #[] = .ok drain) :
    Carries c.audited [] ⟨.inl c, ring, drain⟩ := by
  obtain ⟨-, rfl⟩ := Drain.create_eq_ok hdrain
  exact {
    sound := sound_create hcache
    cache := .inl rfl
    burst_pos := Nat.ne_of_gt (Nat.lt_of_lt_of_le Nat.one_pos (Nat.le_max_right _ 1))
    burst_lt := Nat.max_lt.mpr ⟨burst.toNat_lt, by decide⟩
    ring := hring
    balance := rfl }

theorem runNoted_single (b : ReceiveCache (Audited σ)) (op : CacheOp) :
    (runNoted [op] b).2 = { (b.act op).2 with
      source := (b.act op).2.source.note ((b.act op).1.departures b.unread) } := rfl

/-- Something done to the cache alone, of which the ring gets nothing. -/
theorem Carries.onCache (h : r.Carries b handles) (op : CacheOp)
    (hnone : Departure.forwarded (runNoted [op] b).2.source.departed =
      Departure.forwarded b.source.departed) :
    Carries (runNoted [op] b).2 handles { r with cache := .inl (b.erase.act op).2 } where
  sound := h.sound.runNoted [op]
  cache := .inl (congrArg Sum.inl (b.erase_act op).2.symm)
  burst_pos := h.burst_pos
  burst_lt := h.burst_lt
  ring := h.ring
  balance := h.balance.trans hnone.symm

theorem Carries.refill (h : r.Carries b handles) :
    Carries (runNoted [.refill] b).2 handles { r with cache := .inl b.erase.refill.2 } :=
  h.onCache .refill (by rw [runNoted_refill, b.forwarded_refill])

theorem Carries.take (h : r.Carries b handles) :
    Carries (runNoted [.take] b).2 handles { r with cache := .inl b.erase.take.2 } := by
  refine h.onCache .take ?_
  rw [runNoted_single, ReceiveCache.act, ReceiveCache.take]
  cases b.buffer[b.cursor]? <;>
    simp [CacheReply.departures, Audited.note, Departure.forwarded]

theorem Carries.setHeader (h : r.Carries b handles) (header : CacheHeader) :
    Carries (runNoted [.setHeader header] b).2 handles
      { r with cache := .inl { b.erase with header } } := by
  refine h.onCache (.setHeader header) ?_
  simp [runNoted_single, ReceiveCache.act, CacheReply.departures]

/-- The ring gets the first unread handles, behind those it has. -/
theorem Carries.forward (h : r.Carries b handles) :
    ∃ n ≤ b.unread.length, Carries (runNoted [.forward r.line.ring] b).2 (handles ++ b.unread.take n)
      ⟨.inl (b.erase.forward r.line.ring).2.1,
        { r.line with ring := (b.erase.forward r.line.ring).2.2 }⟩ := by
  obtain ⟨capacity, hring⟩ := h.ring
  obtain ⟨n, hn, houtcome, hring'⟩ := h.sound.forward_ok hring rfl
  obtain ⟨-, hcache, hsame⟩ := b.erase_forward r.line.ring
  have hnoted := runNoted_forward houtcome
  refine ⟨n, hn, ?_⟩
  exact {
    sound := h.sound.runNoted _
    cache := by
      rw [hnoted, ← hcache, forward_cursor houtcome]
      exact .inl rfl
    burst_pos := h.burst_pos
    burst_lt := h.burst_lt
    ring := by
      rw [← hsame]
      refine ⟨capacity, ?_⟩
      rw [List.map_append]
      exact hring'
    balance := by
      rw [hnoted]
      change r.delivered ++ r.pending ++ _ = Departure.forwarded (b.source.departed ++ _)
      rw [Departure.forwarded_append, Departure.forwarded_map_accepted, ← h.balance,
        ← List.append_assoc] }

theorem Carries.close (h : r.Carries b handles) :
    Carries b handles { r with cache := .inr b.erase.close.2 } := by
  have hclose : b.erase.close.2 = b.drop.inner := by rw [← b.erase_close.2, close_eq]
  exact { h with cache := .inr (congrArg Sum.inr hclose) }

theorem Carries.step (h : r.Carries b handles) :
    Carries b (handles.drop r.line.drain.burst) (r.act .step) := by
  obtain ⟨hring, hbalance, hburst⟩ := Drain.step_ok h.burst_pos h.burst_lt h.ring
  exact {
    sound := h.sound
    cache := h.cache
    burst_pos := hburst.trans_ne h.burst_pos
    burst_lt := hburst.trans_lt h.burst_lt
    ring := hring
    balance := by
      rw [← h.balance]
      change (r.line.drain.step keepBatches r.line.ring).2.delivered ++
        (r.line.drain.step keepBatches r.line.ring).2.pending.toList ++ _ = _
      rw [hbalance, List.append_assoc, List.take_append_drop]
      rfl }

theorem Carries.flush (h : r.Carries b handles) : Carries b handles (r.act .flush) where
  sound := h.sound
  cache := h.cache
  burst_pos := (Drain.burst_flush keepBatches _).trans_ne h.burst_pos
  burst_lt := (Drain.burst_flush keepBatches _).trans_lt h.burst_lt
  ring := h.ring
  balance := by
    rw [← h.balance]
    change (r.line.drain.flush keepBatches).delivered ++
      (r.line.drain.flush keepBatches).pending.toList ++ handles = _
    rw [Drain.delivered_flush, Drain.pending_flush, Array.toList_empty, List.append_nil]
    rfl

theorem Carries.act (h : r.Carries b handles) (op : RelayOp) :
    ∃ handles', (r.act op).Carries (runNoted (r.cacheOps op) b).2 handles' := by
  obtain ⟨cache, line⟩ := r
  obtain rfl | rfl := h.cache
  · cases op with
    | refill => exact ⟨_, h.refill⟩
    | take => exact ⟨_, h.take⟩
    | setHeader header => exact ⟨_, h.setHeader header⟩
    | forward =>
        obtain ⟨n, -, hnext⟩ := h.forward
        exact ⟨_, hnext⟩
    | close => exact ⟨_, h.close⟩
    | step => exact ⟨_, h.step⟩
    | flush => exact ⟨_, h.flush⟩
  · cases op with
    | refill | take | setHeader | forward | close => exact ⟨_, h⟩
    | step => exact ⟨_, h.step⟩
    | flush => exact ⟨_, h.flush⟩

theorem Carries.run (ops : List RelayOp) :
    ∀ {b : ReceiveCache (Audited σ)} {handles : List UInt64} {r : Relay σ}, r.Carries b handles →
      ∃ handles', (r.run ops).Carries (runNoted (r.cacheHistory ops) b).2 handles' := by
  induction ops with
  | nil => intro b handles r h; exact ⟨handles, h⟩
  | cons op ops ih =>
      intro b handles r h
      obtain ⟨handles₁, hnext⟩ := h.act op
      obtain ⟨handles₂, hlast⟩ := ih hnext
      refine ⟨handles₂, ?_⟩
      rw [cacheHistory, runNoted_append]
      exact hlast

/-- As many steps as there are handles in the ring take them all. -/
theorem Carries.steps (n : Nat) :
    ∀ {handles : List UInt64} {r : Relay σ}, r.Carries b handles → handles.length ≤ n →
      (r.run (List.replicate n .step)).Carries b [] := by
  induction n with
  | zero =>
      intro handles r h hlen
      rw [List.length_eq_zero_iff.mp (Nat.le_zero.mp hlen)] at h
      exact h
  | succ n ih =>
      intro handles r h hlen
      have hpos := Nat.pos_of_ne_zero h.burst_pos
      exact ih h.step (by rw [List.length_drop]; omega)

/-! ### The books -/

theorem Carries.inner_book (h : r.Carries b handles) : (r.book b).inner = r.source := by
  obtain ⟨cache, line⟩ := r
  obtain rfl | rfl := h.cache <;> rfl

theorem Carries.forwarded_book (h : r.Carries b handles) :
    Departure.forwarded (r.book b).departed = Departure.forwarded b.source.departed := by
  obtain ⟨cache, line⟩ := r
  obtain rfl | rfl := h.cache
  · rfl
  · exact b.forwarded_drop

theorem Carries.appended_book (h : r.Carries b handles) :
    (r.book b).appended = (r.book b).departed.map Departure.handle ++ r.unread := by
  obtain ⟨cache, line⟩ := r
  obtain rfl | rfl := h.cache
  · exact h.sound.balance
  · change b.drop.appended = b.drop.departed.map Departure.handle ++ []
    rw [drop_eq, List.map_append, Departure.map_handle_released, List.append_nil]
    exact h.sound.balance

/-- Once the ring is empty, a flush hands on all the rest. -/
theorem Carries.delivered_flush (h : r.Carries b []) :
    (r.act .flush).delivered = Departure.forwarded b.source.departed := by
  have hlast := h.flush.balance
  have hpending : (r.act .flush).pending = [] :=
    congrArg Array.toList (Drain.pending_flush keepBatches r.line.drain)
  rw [hpending, List.append_nil, List.append_nil] at hlast
  exact hlast

/-- **Order from cache to sink.**  Over any source, after any operations on the cache, on its ring,
which was empty when they began, and on the drain of that ring: the book is that of the very source,
and what has been appended is in it, in order, as departed, or is unread; what the sink has
received, what is pending and what is in the ring are in a row the handles that the forwards got
accepted, in the order in which they were appended; and when the ring is empty, as it is after as
many steps as it has handles, a flush leaves the sink with all of them. -/
theorem delivered_in_order {memory : Memory} {source : σ} {header : CacheHeader} {size : UInt64}
    {locality : Locality} {c : ReceiveCache σ}
    (hcache : ReceiveCache.create memory source header size locality = .ok c)
    {name : RingName} {capacity : UInt64} {producer consumer : SyncMode} {ring : Ring}
    (hring : Ring.withHandles memory name capacity producer consumer = .ok ring)
    {calls : List RingCall} (hfits : ∀ call ∈ calls, call.Fits)
    (hempty : (ring.after calls).isEmpty = true)
    {burst : UInt64} {drain : Drain (Array (Array UInt64))}
    (hdrain : Drain.create (ring.after calls) burst.toNat #[] = .ok drain) (ops : List RelayOp) :
    let begun : Relay σ := ⟨.inl c, ring.after calls, drain⟩
    let r := begun.run ops
    let book := r.book (runNoted (begun.cacheHistory ops) c.audited).2
    let forwarded := Departure.forwarded book.departed
    (book.inner = r.source ∧ book.appended = book.departed.map Departure.handle ++ r.unread) ∧
    (r.delivered ++ r.pending ++ r.queued = forwarded ∧ forwarded.Sublist book.appended) ∧
    (r.line.ring.isEmpty = true → (r.act .flush).delivered = forwarded) ∧
    ∀ n, r.queued.length ≤ n →
      (r.run (List.replicate n .step)).line.ring.isEmpty = true ∧
        ((r.run (List.replicate n .step)).act .flush).delivered = forwarded := by
  intro begun r book forwarded
  have hbegun : begun.Carries c.audited [] :=
    carries_create hcache (Ring.has_nil_after hring hfits hempty) hdrain
  obtain ⟨handles, h⟩ := hbegun.run ops
  have hqueued : r.queued = handles := h.ring.contents_eq
  have hbook : forwarded = Departure.forwarded
    (runNoted (begun.cacheHistory ops) c.audited).2.source.departed := h.forwarded_book
  refine ⟨⟨h.inner_book, h.appended_book⟩, ⟨?_, ?_⟩, fun hnone => ?_, fun n hn => ?_⟩
  · rw [hqueued, hbook]
    exact h.balance
  · rw [h.appended_book]
    exact (Departure.forwarded_sublist _).trans (List.sublist_append_left _ _)
  · rw [h.ring.isEmpty_iff.mp hnone] at h
    rw [hbook]
    exact h.delivered_flush
  · have hlast := h.steps n (hqueued ▸ hn)
    rw [hbook]
    exact ⟨hlast.ring.isEmpty_iff.mpr rfl, hlast.delivered_flush⟩

/-- Handles forwarded and taken, bursts that go back, another one, and the end of the cache. -/
def relayOps : List RelayOp :=
  [.refill, .forward, .take, .step, .forward, .refill, .refill, .refill, .refill, .step, .forward,
    .close, .forward]

/-- Room for one handle, and one has passed through. -/
def usedRing : Ring := narrowRing.after [.enqueueOne 7, .dequeueOne]

/-- A drain of three handles at a time that has not begun. -/
def emptyDrain : Drain (Array (Array UInt64)) := ⟨3, #[], 0, #[]⟩

theorem delivered_in_order_narrow :
    ∃ c, create (.below 100) misbehaving (.ofIds ⟨0⟩ ⟨0⟩) 3 .any = .ok c ∧
      Drain.create usedRing 3 #[] = .ok emptyDrain ∧
      let r := run relayOps ⟨.inl c, usedRing, emptyDrain⟩
      (r.delivered, r.pending, r.queued, r.unread) = ([], [1, 3], [11], []) ∧
        ((r.run (List.replicate 1 .step)).act .flush).delivered = [1, 3, 11] := by
  set c : ReceiveCache ScriptedSource := ⟨.ofIds ⟨0⟩ ⟨0⟩, misbehaving, #[], 3, 0, .any⟩ with hc
  have hcache : create (.below 100) misbehaving (.ofIds ⟨0⟩ ⟨0⟩) 3 .any = .ok c := rfl
  have hring : Ring.withHandles (.below 100) narrowRing.name 1 .single .multi = .ok narrowRing := rfl
  have hfits : ∀ call ∈ [RingCall.enqueueOne 7, .dequeueOne], call.Fits := by decide
  have hdrain : Drain.create usedRing (UInt64.toNat 3) #[] = .ok emptyDrain := by
    rw [Drain.create, if_neg (by decide +kernel)]
    rfl
  obtain ⟨-, -, -, hsteps⟩ :=
    delivered_in_order hcache hring hfits (by decide +kernel) hdrain relayOps
  have hplaces : (let r := run relayOps ⟨.inl c, usedRing, emptyDrain⟩
      (r.delivered, r.pending, r.queued, r.unread)) = ([], [1, 3], [11], []) := by
    rw [hc]
    decide +kernel
  have hend := (hsteps 1 (by rw [hc]; decide +kernel)).2
  refine ⟨c, hcache, hdrain, hplaces, hend.trans ?_⟩
  rw [hc]
  decide +kernel

end Relay

end BurstRing
