import BurstRing.Proofs.Cache.Audit
import BurstRing.Proofs.Ring.Queue
import BurstRing.Source.Scripted

/-!
# Every handle is accounted for

A cache hands out what its source appends, in the order in which it came, and never loses its
place: what has been appended is at every moment what has departed, followed by what is unread
(`Accounted.balance`).  So an occurrence of a handle is in one place, taken, accepted by a ring or
released, or unread, and it has departed once if at all.

Reading on, giving back and giving up a burst are all one thing, the departure of the first unread
handles (`Accounted.depart`).  A source that breaks its word only ever makes the burst longer or
the refill fail, and either way everything goes back to it.  The main statement is
`ReceiveCache.handles_accounted`.
-/

namespace BurstRing

@[simp] theorem Departure.map_handle_released (handles : List UInt64) :
    (handles.map Departure.released).map handle = handles := by
  rw [List.map_map]
  exact List.map_id handles

@[simp] theorem Departure.map_handle_accepted (handles : List UInt64) :
    (handles.map Departure.accepted).map handle = handles := by
  rw [List.map_map]
  exact List.map_id handles

namespace ReceiveCache

variable {σ : Type} {c : ReceiveCache (Audited σ)}

/-- What has come in has gone out, in order, or is unread. -/
structure Accounted (c : ReceiveCache (Audited σ)) : Prop where
  cursor_le : c.cursor ≤ c.length
  balance : c.source.appended = c.source.departed.map Departure.handle ++ c.unread

/-- An accounted cache that holds no more than it may. -/
structure Sound (c : ReceiveCache (Audited σ)) : Prop extends c.Accounted where
  length_le : c.length ≤ c.size
  size_lt : c.size < UInt64.size

theorem length_unread (c : ReceiveCache σ) : c.unread.length = c.remaining := by
  rw [unread, List.length_drop, Array.length_toList]
  rfl

/-- The first unread handles depart. -/
theorem Accounted.depart (h : c.Accounted) {n : Nat} (hn : c.cursor + n ≤ c.length) (inner : σ)
    {departures : List Departure} (hd : departures.map Departure.handle = c.unread.take n) :
    Accounted ⟨c.header, ⟨inner, c.source.appended, c.source.departed ++ departures⟩, c.buffer,
      c.size, c.cursor + n, c.locality⟩ where
  cursor_le := hn
  balance := by
    have hsplit : c.unread = c.unread.take n ++ c.buffer.toList.drop (c.cursor + n) := by
      rw [← List.drop_drop]
      exact (List.take_append_drop n c.unread).symm
    dsimp only [unread]
    rw [h.balance, List.map_append, hd, List.append_assoc, ← hsplit]

theorem sound_create {memory : Memory} {source : σ} {header : CacheHeader} {size : UInt64}
    {locality : Locality} {c : ReceiveCache σ}
    (h : create memory source header size locality = .ok c) : c.audited.Sound := by
  rw [create] at h
  split at h
  · cases h
  · split at h
    · cases h
      exact ⟨⟨Nat.le_refl 0, rfl⟩, Nat.zero_le _, size.toNat_lt⟩
    · cases h

/-! ### Reading on -/

/-- The first unread handles depart, as a reply tells. -/
theorem Sound.note (h : c.Sound) {n : Nat} (hn : n ≤ c.unread.length)
    {departures : List Departure} (hd : departures.map Departure.handle = c.unread.take n) :
    Sound { c with cursor := c.cursor + n, source := c.source.note departures } where
  toAccounted := by
    rw [length_unread, remaining] at hn
    exact h.depart (by have := h.cursor_le; omega) c.source.inner hd
  length_le := h.length_le
  size_lt := h.size_lt

/-- Noting that nothing departs. -/
theorem Sound.note_nil (h : c.Sound) : Sound { c with source := c.source.note [] } :=
  h.note (n := 0) (Nat.zero_le _) rfl

theorem Sound.take (h : c.Sound) :
    Sound { c.take.2 with
      source := c.take.2.source.note ((CacheReply.taken c.take.1).departures c.unread) } := by
  rw [ReceiveCache.take]
  split
  · rename_i handle hget
    obtain ⟨hlt, hhandle⟩ := Array.getElem?_eq_some_iff.mp hget
    have hnext : c.unread = handle :: c.buffer.toList.drop (c.cursor + 1) := by
      rw [unread, List.drop_eq_getElem_cons (by rwa [Array.length_toList]), Array.getElem_toList,
        hhandle]
    exact h.note (n := 1) (by rw [hnext]; exact Nat.succ_le_succ (Nat.zero_le _))
      (by rw [hnext]; rfl)
  · exact h.note_nil

theorem Sound.forward (h : c.Sound) (ring : Ring) :
    Sound { (c.forward ring).2.1 with
      source := (c.forward ring).2.1.source.note
        ((CacheReply.forwarded (c.forward ring).1 (c.forward ring).2.2).departures c.unread) } := by
  have hsize : (c.buffer.extract c.cursor c.length).size = c.unread.length := by
    rw [Array.size_extract, length_unread, remaining, length, Nat.min_self]
  rw [ReceiveCache.forward]
  split
  · exact h.note_nil
  · split
    · rename_i moved ring' hring
      have hmoved : moved ≤ c.unread.length := hsize ▸ Ring.enqueue_le (by rw [hring])
      exact h.note hmoved (Departure.map_handle_accepted _)
    · exact h.note_nil

/-! ### Rings -/

theorem forward_eq (c : ReceiveCache σ) (ring : Ring) (hmore : ¬ c.isExhausted = true) :
    (c.forward ring).1 = (ring.enqueue (c.buffer.extract c.cursor c.length) .burst).1 ∧
      (c.forward ring).2.2 = (ring.enqueue (c.buffer.extract c.cursor c.length) .burst).2 := by
  rw [forward, if_neg hmore]
  split <;> rename_i h <;> rw [h] <;> exact ⟨rfl, rfl⟩

/-- A forward with something unread asks the ring to store all of it. -/
theorem Sound.forward_store (h : c.Sound) (hmore : ¬ c.isExhausted = true) {ring : Ring}
    {q : RecordQueue} (hq : ring.Represents q) :
    let expected := q.store handleSize (c.unread.map Handle.record) .atMost
      (c.unread.length * handleSize)
    (c.forward ring).1 = expected.1 ∧ (c.forward ring).2.2.Represents expected.2 := by
  set handles := c.buffer.extract c.cursor c.length with hhandles
  have hlist : handles.toList = c.unread := by
    rw [hhandles, Array.toList_extract, List.extract_eq_take_drop, unread]
    exact List.take_of_length_le (by rw [List.length_drop, Array.length_toList]; rfl)
  -- The ring counts the handles in a word, and the cache has no more than its size.
  have hfits : handles.size < UInt64.size := by
    have hle := h.length_le
    have hlt := h.size_lt
    rw [hhandles, Array.size_extract]
    simp only [length] at hle ⊢
    omega
  have hput := hq.putHandles (ring.sharedAccess .producer .burst) .atMost handles hfits
  rw [← Array.length_toList, hlist] at hput
  obtain ⟨houtcome, hring⟩ := forward_eq c ring hmore
  rw [houtcome, hring]
  exact hput

/-- A ring at rest takes in what a forward reports, behind what it holds. -/
theorem Sound.forward_holds (h : c.Sound) {ring : Ring} {q : List (List UInt8)} {n : Nat}
    (hq : ring.Holds q) (hn : (c.forward ring).1 = .ok n) :
    (c.forward ring).2.2.Holds (q ++ (c.unread.take n).map Handle.record) := by
  by_cases hdone : c.isExhausted = true
  · rw [ReceiveCache.forward, if_pos hdone] at hn ⊢
    cases hn
    rw [List.take_zero, List.map_nil, List.append_nil]
    exact hq
  · have hring : ring.Represents ⟨ring.shape.capacity, ring.shape.elementSize, q⟩ := ⟨rfl, rfl, hq⟩
    obtain ⟨houtcome, hr'⟩ := h.forward_store hdone hring
    have hholds := hr'.holds
    rw [RecordQueue.records_store (houtcome.symm.trans hn), ← List.map_take] at hholds
    exact hholds

/-! ### Giving back -/

variable [BurstSource σ]

theorem releaseUnread_eq (c : ReceiveCache (Audited σ)) :
    c.releaseUnread = (c.remaining, ⟨c.header,
      ⟨BurstSource.releaseAll c.unread c.source.inner, c.source.appended,
        c.source.departed ++ c.unread.map .released⟩, c.buffer, c.size, c.length, c.locality⟩) := by
  rw [releaseUnread, Audited.releaseAll_eq]

theorem unread_releaseUnread (c : ReceiveCache (Audited σ)) : c.releaseUnread.2.unread = [] :=
  List.drop_eq_nil_of_le (Nat.le_of_eq Array.length_toList)

theorem Accounted.releaseUnread (h : c.Accounted) : c.releaseUnread.2.Accounted := by
  have hend : c.cursor + c.remaining = c.length := Nat.add_sub_cancel' h.cursor_le
  have hall : (c.unread.map Departure.released).map Departure.handle =
      c.unread.take c.remaining := by
    rw [Departure.map_handle_released, ← length_unread, List.take_length]
  have hdepart := h.depart (Nat.le_of_eq hend) (BurstSource.releaseAll c.unread c.source.inner) hall
  rw [releaseUnread_eq]
  rw [hend] at hdepart
  exact hdepart

theorem Accounted.discard (h : c.Accounted) : c.discard.Accounted where
  cursor_le := Nat.le_refl 0
  balance := by
    have hbalance := h.releaseUnread.balance
    rw [unread_releaseUnread] at hbalance
    exact hbalance

/-- A burst is appended to what is unread, whatever the source reports about it. -/
theorem Accounted.receive (h : c.Accounted) (max : Nat) :
    let answer := BurstSource.receive c.header.source c.header.channel c.length max c.source
    ({ c with source := answer.2, buffer := c.buffer ++ answer.1.appended } :
      ReceiveCache (Audited σ)).Accounted where
  cursor_le := by
    have := h.cursor_le
    simp only [length, Array.size_append] at this ⊢
    omega
  balance := by
    have hcursor : c.cursor ≤ c.buffer.toList.length := h.cursor_le
    simp only [BurstSource.receive, unread, Array.toList_append]
    rw [h.balance, List.drop_append_of_le_length hcursor, ← List.append_assoc]
    rfl

/-! ### Operations -/

theorem violation?_eq_none {size written : Nat} {report : Except SourceError Nat}
    (h : violation? size written report = none) : written ≤ size := by
  unfold violation? at h
  split at h
  · cases h
  · split at h
    · cases h
    · rename_i hle
      exact Nat.not_lt.mp hle

theorem Sound.refill (h : c.Sound) : c.refill.2.Sound := by
  have hburst := h.discard.receive c.size
  have hsize := h.size_lt
  rw [ReceiveCache.refill]
  dsimp only at hburst ⊢
  split
  · exact ⟨hburst.discard, Nat.zero_le _, hsize⟩
  · rename_i hnone
    exact ⟨hburst, violation?_eq_none hnone, hsize⟩

theorem Sound.act (h : c.Sound) (op : CacheOp) :
    Sound { (c.act op).2 with
      source := (c.act op).2.source.note ((c.act op).1.departures c.unread) } := by
  cases op with
  | refill => exact h.refill.note_nil
  | take => exact h.take
  | forward ring => exact h.forward ring
  | setHeader header => exact Sound.note_nil ⟨⟨h.cursor_le, h.balance⟩, h.length_le, h.size_lt⟩
  | look => exact h.note_nil

theorem Sound.runNoted (ops : List CacheOp) :
    ∀ {c : ReceiveCache (Audited σ)}, c.Sound → (runNoted ops c).2.Sound := by
  induction ops with
  | nil => intro c h; exact h
  | cons op ops ih => intro c h; exact ih (h.act op)

/-! ### The end -/

/-- A drop releases what is unread, each handle once. -/
theorem drop_eq (c : ReceiveCache (Audited σ)) :
    c.drop = ⟨BurstSource.releaseAll c.unread c.source.inner, c.source.appended,
      c.source.departed ++ c.unread.map .released⟩ := by
  rw [drop, releaseUnread_eq]

/-- The drop that follows a close finds nothing to release. -/
theorem close_eq (c : ReceiveCache (Audited σ)) : c.close = (c.unread.length, c.drop) := by
  have hagain : c.releaseUnread.2.drop = c.drop := by
    rw [drop_eq, unread_releaseUnread, List.map_nil, List.append_nil]
    rfl
  rw [length_unread, ← hagain]
  rfl

/-- **Conservation of handles.**  Over any source, however it misbehaves, and after any operations:
the audited cache answers and ends as the cache over the bare source; the cursor lies within the
burst and the burst within the size; what was appended is what departed followed by what is unread,
in order; what a ring at rest reports as accepted is stored in it; a drop departs all that is
unread, each handle by one release; and a close does the same and tells how many there were. -/
theorem handles_accounted {memory : Memory} {source : σ} {header : CacheHeader} {size : UInt64}
    {locality : Locality} {c : ReceiveCache σ}
    (hcreate : create memory source header size locality = .ok c) (ops : List CacheOp) :
    let plain := run ops c
    let noted := runNoted ops c.audited
    let s := noted.2
    (noted.1 = plain.1 ∧ s.erase = plain.2 ∧ s.drop.inner = plain.2.drop ∧
      s.close.1 = plain.2.close.1 ∧ s.close.2.inner = plain.2.close.2) ∧
    (s.cursor ≤ s.length ∧ s.length ≤ s.size) ∧
    s.source.appended = s.source.departed.map Departure.handle ++ s.unread ∧
    (∀ (ring : Ring) (q : List (List UInt8)) (n : Nat), ring.Holds q →
      (s.forward ring).1 = .ok n →
      (s.forward ring).2.2.Holds (q ++ (s.unread.take n).map Handle.record)) ∧
    (s.drop.appended = s.source.appended ∧
      s.drop.departed = s.source.departed ++ s.unread.map .released ∧
      s.drop.appended = s.drop.departed.map Departure.handle) ∧
    s.close = (s.unread.length, s.drop) := by
  intro plain noted s
  obtain ⟨hreplies, herase⟩ := erase_runNoted ops c.audited
  have hsound : s.Sound := (sound_create hcreate).runNoted ops
  refine ⟨⟨hreplies, herase, ?_, ?_, ?_⟩, ⟨hsound.cursor_le, hsound.length_le⟩, hsound.balance,
    fun ring q n hq hn => hsound.forward_holds hq hn, ?_, close_eq s⟩
  · rw [erase_drop]
    exact congrArg drop herase
  · rw [s.erase_close.1]
    exact congrArg (fun d => (close d).1) herase
  · rw [s.erase_close.2]
    exact congrArg (fun d => (close d).2) herase
  · rw [drop_eq, List.map_append, Departure.map_handle_released]
    exact ⟨rfl, rfl, hsound.balance⟩

/-- A burst as asked for, one that is too long, one told wrong, one that fails, and another. -/
def misbehaving : ScriptedSource where
  batches := [⟨#[1, 2, 3], false, none, none⟩, ⟨#[4, 5, 6, 7], true, none, none⟩,
    ⟨#[8, 9], false, some 5, none⟩, ⟨#[10], false, none, some .channel⟩,
    ⟨#[11, 12, 13], false, none, none⟩]
  log := #[]

/-- A ring with room for one handle. -/
def narrowRing : Ring :=
  .ofShape ⟨"narrow", by decide⟩
    ⟨1, handleSize, by decide, by decide, by decide, by decide, by decide, .wrapping⟩ .single .multi

/-- Handles taken and forwarded, and four more refills. -/
def misbehavingOps : List CacheOp :=
  [.refill, .take, .forward narrowRing, .refill, .refill, .refill, .refill, .take, .look]

theorem handles_accounted_misbehaving :
    ∃ c, create (.below 100) misbehaving (.ofIds ⟨0⟩ ⟨0⟩) 3 .any = .ok c ∧
      let s := (runNoted misbehavingOps c.audited).2
      s.close = (2, s.drop) ∧ s.drop.appended = s.drop.departed.map Departure.handle ∧
        s.drop.departed = [.taken 1, .accepted 2, .released 3, .released 4, .released 5,
          .released 6, .released 7, .released 8, .released 9, .released 10, .taken 11,
          .released 12, .released 13] := by
  set c : ReceiveCache ScriptedSource := ⟨.ofIds ⟨0⟩ ⟨0⟩, misbehaving, #[], 3, 0, .any⟩ with hc
  have hcreate : create (.below 100) misbehaving (.ofIds ⟨0⟩ ⟨0⟩) 3 .any = .ok c := rfl
  have hlen : (runNoted misbehavingOps c.audited).2.unread.length = 2 := by
    rw [hc]
    decide +kernel
  obtain ⟨-, -, -, -, hdrop, hclose⟩ := handles_accounted hcreate misbehavingOps
  rw [hlen] at hclose
  refine ⟨c, hcreate, hclose, hdrop.2.2, ?_⟩
  rw [hc]
  decide +kernel

end ReceiveCache

end BurstRing
