import BurstRing.ReceiveCache

/-!
# A cache over a source that keeps books

`Audited σ` is a source of type `σ` that enters every handle it appends, and every handle that is
released to it, in a book.  A cache over it does what a cache over `σ` does
(`ReceiveCache.erase_runNoted`), because it treats its source as a black box.  Handles that leave by
a take or into a ring are entered by `ReceiveCache.runNoted`, from the reply to the operation and
what was unread before it.

So the book of an audited cache lists, in order, what came in and how each handle went out.
-/

namespace BurstRing

/-- How a handle left a cache. -/
inductive Departure where
  /-- A take returned it. -/
  | taken (handle : UInt64)
  /-- A ring accepted it. -/
  | accepted (handle : UInt64)
  /-- The source was given it back. -/
  | released (handle : UInt64)
  deriving DecidableEq, Repr

def Departure.handle : Departure → UInt64
  | .taken handle | .accepted handle | .released handle => handle

/-- A source with its book: all handles appended, and how handles have left the cache. -/
structure Audited (σ : Type) where
  inner : σ
  appended : List UInt64
  departed : List Departure
  deriving Repr

/-- Something done to a cache. -/
inductive CacheOp where
  | refill
  | take
  | forward (ring : Ring)
  | setHeader (header : CacheHeader)
  /-- Ask all queries. -/
  | look

/-- What a cache answers. -/
inductive CacheReply where
  | refilled (outcome : Except SourceError Nat)
  | taken (handle : Option UInt64)
  | forwarded (outcome : Except TransferFault Nat) (ring : Ring)
  | headerSet
  | seen (received : Array UInt64) (remaining : Nat) (isEmpty isExhausted : Bool) (text : String)

/-- The departures that a reply tells of, if `unread` was unread before. -/
def CacheReply.departures (unread : List UInt64) : CacheReply → List Departure
  | .taken (some handle) => [.taken handle]
  | .forwarded (.ok n) _ => (unread.take n).map .accepted
  | _ => []

namespace Audited

variable {σ : Type} [BurstSource σ]

/-- The source with an empty book. -/
def of (source : σ) : Audited σ := ⟨source, [], []⟩

/-- Enters departures. -/
def note (departures : List Departure) (s : Audited σ) : Audited σ :=
  { s with departed := s.departed ++ departures }

instance : BurstSource (Audited σ) where
  receive source channel held max s :=
    let (burst, inner) := BurstSource.receive source channel held max s.inner
    (burst, { s with inner, appended := s.appended ++ burst.appended.toList })
  release handle s :=
    { s with inner := BurstSource.release handle s.inner,
             departed := s.departed ++ [.released handle] }

end Audited

namespace ReceiveCache

variable {σ : Type} [BurstSource σ]

/-- Does one thing. -/
def act (c : ReceiveCache σ) : CacheOp → CacheReply × ReceiveCache σ
  | .refill =>
    let (outcome, c) := c.refill
    (.refilled outcome, c)
  | .take =>
    let (handle, c) := c.take
    (.taken handle, c)
  | .forward ring =>
    let (outcome, c, ring) := c.forward ring
    (.forwarded outcome ring, c)
  | .setHeader header => (.headerSet, { c with header })
  | .look => (.seen c.buffer c.remaining c.isEmpty c.isExhausted c.debug, c)

/-- Does one thing after another. -/
def run : List CacheOp → ReceiveCache σ → List CacheReply × ReceiveCache σ
  | [], c => ([], c)
  | op :: ops, c =>
    let (reply, c) := c.act op
    let (replies, c) := c.run ops
    (reply :: replies, c)

/-- The same, and departures are entered in the book. -/
def runNoted : List CacheOp → ReceiveCache (Audited σ) → List CacheReply × ReceiveCache (Audited σ)
  | [], c => ([], c)
  | op :: ops, c =>
    let unread := c.unread
    let (reply, c) := c.act op
    let (replies, c) := runNoted ops { c with source := c.source.note (reply.departures unread) }
    (reply :: replies, c)

/-- The cache over an audited source. -/
def audited (c : ReceiveCache σ) : ReceiveCache (Audited σ) :=
  ⟨c.header, .of c.source, c.buffer, c.size, c.cursor, c.locality⟩

/-- The cache without the book. -/
def erase (c : ReceiveCache (Audited σ)) : ReceiveCache σ :=
  ⟨c.header, c.source.inner, c.buffer, c.size, c.cursor, c.locality⟩

end ReceiveCache

/-! ### The book changes nothing -/

namespace Audited

variable {σ : Type} [BurstSource σ]

/-- Releasing handles enters each of them once. -/
theorem releaseAll_eq (handles : List UInt64) :
    ∀ s : Audited σ, BurstSource.releaseAll handles s =
      ⟨BurstSource.releaseAll handles s.inner, s.appended,
        s.departed ++ handles.map .released⟩ := by
  induction handles with
  | nil => intro s; rw [List.map_nil, List.append_nil]; rfl
  | cons handle handles ih =>
      intro s
      rw [List.map_cons, List.append_cons]
      exact ih (BurstSource.release handle s)

end Audited

namespace ReceiveCache

variable {σ : Type} (c : ReceiveCache (Audited σ))

theorem erase_take : c.take.1 = c.erase.take.1 ∧ c.take.2.erase = c.erase.take.2 := by
  simp only [take, erase]
  split <;> exact ⟨rfl, rfl⟩

theorem erase_forward (ring : Ring) :
    (c.forward ring).1 = (c.erase.forward ring).1 ∧
      (c.forward ring).2.1.erase = (c.erase.forward ring).2.1 ∧
      (c.forward ring).2.2 = (c.erase.forward ring).2.2 := by
  by_cases hdone : c.isExhausted = true
  · rw [forward, forward, if_pos hdone, if_pos (show c.erase.isExhausted = true from hdone)]
    exact ⟨rfl, rfl, rfl⟩
  · rw [forward, forward, if_neg hdone, if_neg (show ¬ c.erase.isExhausted = true from hdone)]
    simp only [erase, length]
    split <;> exact ⟨rfl, rfl, rfl⟩

variable [BurstSource σ]

theorem erase_releaseUnread :
    c.releaseUnread.1 = c.erase.releaseUnread.1 ∧
      c.releaseUnread.2.erase = c.erase.releaseUnread.2 := by
  refine ⟨rfl, ?_⟩
  rw [releaseUnread, Audited.releaseAll_eq]
  rfl

theorem erase_discard : c.discard.erase = c.erase.discard := by
  rw [discard, discard, ← c.erase_releaseUnread.2]
  rfl

theorem erase_refill :
    c.refill.1 = c.erase.refill.1 ∧ c.refill.2.erase = c.erase.refill.2 := by
  simp only [refill, ← erase_discard]
  generalize c.discard = d
  obtain ⟨header, ⟨inner, appended, departed⟩, buffer, size, cursor, locality⟩ := d
  simp only [erase, length, BurstSource.receive]
  split
  · refine ⟨rfl, ?_⟩
    exact erase_discard _
  · exact ⟨rfl, rfl⟩

theorem erase_act (op : CacheOp) :
    (c.act op).1 = (c.erase.act op).1 ∧ (c.act op).2.erase = (c.erase.act op).2 := by
  cases op with
  | refill => exact ⟨congrArg CacheReply.refilled c.erase_refill.1, c.erase_refill.2⟩
  | take => exact ⟨congrArg CacheReply.taken c.erase_take.1, c.erase_take.2⟩
  | forward ring =>
      obtain ⟨houtcome, hcache, hring⟩ := c.erase_forward ring
      refine ⟨?_, hcache⟩
      change CacheReply.forwarded (c.forward ring).1 (c.forward ring).2.2 =
        .forwarded (c.erase.forward ring).1 (c.erase.forward ring).2.2
      rw [houtcome, hring]
  | setHeader header => exact ⟨rfl, rfl⟩
  | look => exact ⟨rfl, rfl⟩

/-- Noting departures changes neither an answer nor what a cache over the bare source would be. -/
theorem erase_runNoted (ops : List CacheOp) :
    ∀ c : ReceiveCache (Audited σ), (runNoted ops c).1 = (run ops c.erase).1 ∧
      (runNoted ops c).2.erase = (run ops c.erase).2 := by
  induction ops with
  | nil => intro c; exact ⟨rfl, rfl⟩
  | cons op ops ih =>
      intro c
      obtain ⟨hreply, hcache⟩ := c.erase_act op
      simp only [run, runNoted, ← hreply, ← hcache]
      obtain ⟨hreplies, hcaches⟩ := ih { (c.act op).2 with
        source := (c.act op).2.source.note ((c.act op).1.departures c.unread) }
      exact ⟨congrArg _ hreplies, hcaches⟩

theorem erase_drop : c.drop.inner = c.erase.drop :=
  congrArg ReceiveCache.source c.erase_releaseUnread.2

theorem erase_close : c.close.1 = c.erase.close.1 ∧ c.close.2.inner = c.erase.close.2 :=
  ⟨rfl, c.releaseUnread.2.erase_drop.trans (congrArg drop c.erase_releaseUnread.2)⟩

end ReceiveCache

end BurstRing
