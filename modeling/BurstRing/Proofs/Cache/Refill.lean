import BurstRing.Proofs.Cache.Custody

/-!
# What a refill asks of its source

A refill gives back what is unread, asks once for a burst, and gives the burst back as well if
anything is wrong with it.  What the source does when it is asked is told by the cache before the
refill (`ReceiveCache.answer`), and everything else follows: what the refill reports, what it leaves
in the cache and what it releases.

To see the calls in order one gives the cache a source that logs them (`Logged`).  To see that no
handle is released that has been taken or forwarded one looks into the book of an audited cache: a
refill adds releases to it and alters nothing.  The main statement is `ReceiveCache.refill_settles`.
-/

namespace BurstRing

/-! ### Sources that log -/

/-- A source with a log of all it is asked to do, in order. -/
structure Logged (σ : Type) where
  inner : σ
  log : List SourceEvent

namespace Logged

variable {σ : Type} [BurstSource σ]

instance : BurstSource (Logged σ) where
  receive source channel held max s :=
    let (burst, inner) := BurstSource.receive source channel held max s.inner
    (burst, ⟨inner, s.log ++ [.received source channel held max]⟩)
  release handle s := ⟨BurstSource.release handle s.inner, s.log ++ [.released handle]⟩

theorem releaseAll_eq (handles : List UInt64) : ∀ s : Logged σ, BurstSource.releaseAll handles s =
    ⟨BurstSource.releaseAll handles s.inner, s.log ++ handles.map .released⟩ := by
  induction handles with
  | nil => intro s; rw [List.map_nil, List.append_nil]; rfl
  | cons handle handles ih =>
      intro s
      rw [List.map_cons, List.append_cons]
      exact ih (BurstSource.release handle s)

end Logged

namespace ReceiveCache

/-- The cache without the log. -/
def unlogged {σ : Type} (c : ReceiveCache (Logged σ)) : ReceiveCache σ :=
  ⟨c.header, c.source.inner, c.buffer, c.size, c.cursor, c.locality⟩

/-! ### Bursts -/

section

variable {σ : Type} [BurstSource σ]

/-- What the source does when it has got back all unread handles and is asked for a burst. -/
def answer (c : ReceiveCache σ) : Burst × σ :=
  BurstSource.receive c.header.source c.header.channel 0 c.size
    (BurstSource.releaseAll c.unread c.source)

/-- Handles that the source writes when it is asked. -/
def written (c : ReceiveCache σ) : Array UInt64 := c.answer.1.appended

/-- Handles of the burst that a refill gives back: all, if it fails. -/
def rejected (c : ReceiveCache σ) : List UInt64 :=
  match c.refill.1 with
  | .ok _ => []
  | .error _ => c.written.toList

/-- A burst is kept if it is as reported and no longer than asked for. -/
theorem violation?_eq_none_iff {size written : Nat} {report : Except SourceError Nat} :
    violation? size written report = none ↔ report = .ok written ∧ written ≤ size := by
  cases report with
  | error e => simp [violation?]
  | ok reported =>
      by_cases hlong : size < written
      · simp [violation?, hlong]
      · simp [violation?, hlong, Nat.not_lt.mp hlong]

/-- What is wrong with a burst: the source says so, or it is too long, or its length was told
wrong, and the first of these counts. -/
theorem violation?_eq_some_iff {size written : Nat} {report : Except SourceError Nat}
    {e : SourceError} : violation? size written report = some e ↔
      report = .error e ∨ ∃ reported, report = .ok reported ∧
        (size < written ∧ e = .overrun written size ∨
          written ≤ size ∧ reported ≠ written ∧ e = .countMismatch reported written) := by
  cases report with
  | error e' => simp [violation?]
  | ok reported =>
      by_cases hlong : size < written
      · simp [violation?, hlong, Nat.not_le.mpr hlong, eq_comm]
      · simp [violation?, hlong, Nat.not_lt.mp hlong, eq_comm]

/-- A refill, by what its source does. -/
theorem refill_eq_of_answer (c : ReceiveCache σ) :
    c.refill =
      match violation? c.size c.written.size c.answer.1.report with
      | some e => (.error e, { c with
          source := BurstSource.releaseAll c.written.toList c.answer.2, buffer := #[], cursor := 0 })
      | none => (.ok c.written.size, { c with
          source := c.answer.2, buffer := c.written, cursor := 0 }) := by
  have hdiscard : c.discard = { c with
      source := BurstSource.releaseAll c.unread c.source, buffer := #[], cursor := 0 } := rfl
  simp only [refill, hdiscard, length, List.size_toArray, List.length_nil, Array.empty_append]
  rfl

theorem refill_ok_iff (c : ReceiveCache σ) (n : Nat) : c.refill.1 = .ok n ↔
    c.answer.1.report = .ok n ∧ c.written.size = n ∧ n ≤ c.size := by
  rw [refill_eq_of_answer]
  cases h : violation? c.size c.written.size c.answer.1.report with
  | none =>
      obtain ⟨hreport, hsize⟩ := violation?_eq_none_iff.mp h
      rw [hreport]
      constructor
      · rintro ⟨⟩
        exact ⟨rfl, rfl, hsize⟩
      · rintro ⟨-, rfl, -⟩
        rfl
  | some e =>
      refine iff_of_false nofun ?_
      rintro ⟨hreport, rfl, hsize⟩
      cases h.symm.trans (violation?_eq_none_iff.mpr ⟨hreport, hsize⟩)

theorem refill_error_iff (c : ReceiveCache σ) (e : SourceError) : c.refill.1 = .error e ↔
    c.answer.1.report = .error e ∨ ∃ reported, c.answer.1.report = .ok reported ∧
      (c.size < c.written.size ∧ e = .overrun c.written.size c.size ∨
        c.written.size ≤ c.size ∧ reported ≠ c.written.size ∧
          e = .countMismatch reported c.written.size) := by
  rw [← violation?_eq_some_iff, refill_eq_of_answer]
  cases violation? c.size c.written.size c.answer.1.report with
  | none => exact iff_of_false nofun nofun
  | some e' => exact (Except.error.injEq e' e).to_iff.trans (Option.some.injEq e' e).to_iff.symm

variable {c : ReceiveCache σ}

theorem refill_of_ok {n : Nat} (h : c.refill.1 = .ok n) : c.rejected = [] ∧
    c.refill.2 = { c with source := c.answer.2, buffer := c.written, cursor := 0 } := by
  refine ⟨by rw [rejected, h], ?_⟩
  rw [refill_eq_of_answer] at h ⊢
  cases hv : violation? c.size c.written.size c.answer.1.report with
  | none => rfl
  | some e =>
      rw [hv] at h
      cases h

theorem refill_of_error {e : SourceError} (h : c.refill.1 = .error e) :
    c.rejected = c.written.toList ∧ c.refill.2 = { c with
      source := BurstSource.releaseAll c.written.toList c.answer.2, buffer := #[], cursor := 0 } := by
  refine ⟨by rw [rejected, h], ?_⟩
  rw [refill_eq_of_answer] at h ⊢
  cases hv : violation? c.size c.written.size c.answer.1.report with
  | none =>
      rw [hv] at h
      cases h
  | some e => rfl

/-- Kept or not, the burst that a refill gives back has gone back to its source. -/
theorem source_refill (c : ReceiveCache σ) :
    c.refill.2.source = BurstSource.releaseAll c.rejected c.answer.2 := by
  cases h : c.refill.1 with
  | ok n =>
      obtain ⟨hrejected, hcache⟩ := refill_of_ok h
      rw [hrejected, hcache]
      rfl
  | error e =>
      obtain ⟨hrejected, hcache⟩ := refill_of_error h
      rw [hrejected, hcache]

end

/-! ### The whole refill -/

variable {σ : Type} [BurstSource σ]

/-- A refill of `c` does what it should, and nothing else. -/
structure Settles (c : ReceiveCache (Logged σ)) : Prop where
  /-- To log calls changes nothing. -/
  unlogged : c.unlogged.refill = (c.refill.1, c.refill.2.unlogged)
  /-- Unread handles go back, the source is asked once, and a burst that is not kept goes back. -/
  calls : c.refill.2.source.log = c.source.log ++ (c.unread.map .released ++
    .received c.header.source c.header.channel 0 c.size :: c.rejected.map .released)
  accepts : ∀ n, c.refill.1 = .ok n ↔
    c.answer.1.report = .ok n ∧ c.written.size = n ∧ n ≤ c.size
  /-- What the source reports comes first, and a burst too long before one told wrong. -/
  fails : ∀ e, c.refill.1 = .error e ↔
    c.answer.1.report = .error e ∨ ∃ reported, c.answer.1.report = .ok reported ∧
      (c.size < c.written.size ∧ e = .overrun c.written.size c.size ∨
        c.written.size ≤ c.size ∧ reported ≠ c.written.size ∧
          e = .countMismatch reported c.written.size)
  /-- A burst that is accepted is in the cache, and none of it has been read. -/
  kept : ∀ n, c.refill.1 = .ok n →
    c.refill.2 = { c with source := c.answer.2, buffer := c.written, cursor := 0 } ∧
      c.refill.2.length = n
  /-- Otherwise the cache is empty, and all that has been written has gone back. -/
  cleared : ∀ e, c.refill.1 = .error e → c.rejected = c.written.toList ∧
    c.refill.2 = { c with
      source := BurstSource.releaseAll c.written.toList c.answer.2, buffer := #[], cursor := 0 }

/-- What the bare source does, and the calls it takes. -/
theorem answer_logged (c : ReceiveCache (Logged σ)) :
    c.answer = (c.unlogged.answer.1, ⟨c.unlogged.answer.2, c.source.log ++
      c.unread.map .released ++ [.received c.header.source c.header.channel 0 c.size]⟩) := by
  rw [answer, Logged.releaseAll_eq]
  rfl

theorem unlogged_refill (c : ReceiveCache (Logged σ)) :
    c.unlogged.refill = (c.refill.1, c.refill.2.unlogged) := by
  have hanswer : c.answer.1 = c.unlogged.answer.1 := congrArg Prod.fst c.answer_logged
  have hwritten : c.written = c.unlogged.written := congrArg Burst.appended hanswer
  have hsize : c.size = c.unlogged.size := rfl
  rw [refill_eq_of_answer, refill_eq_of_answer, hanswer, hwritten, hsize]
  cases violation? c.unlogged.size c.unlogged.written.size c.unlogged.answer.1.report with
  | none => rw [answer_logged]; rfl
  | some e => rw [Logged.releaseAll_eq, answer_logged]; rfl

theorem settles (c : ReceiveCache (Logged σ)) : c.Settles where
  unlogged := c.unlogged_refill
  calls := by
    rw [source_refill, Logged.releaseAll_eq, answer_logged]
    simp only [List.append_assoc, List.singleton_append]
  accepts := c.refill_ok_iff
  fails := c.refill_error_iff
  kept := fun n h => by
    obtain ⟨-, hcache⟩ := refill_of_ok h
    obtain ⟨-, hsize, -⟩ := (c.refill_ok_iff n).mp h
    exact ⟨hcache, by rw [hcache]; exact hsize⟩
  cleared := fun e h => refill_of_error h

/-! ### What has been read -/

/-- A refill enters in the book what comes in and what goes back, and alters nothing. -/
theorem book_refill (c : ReceiveCache (Audited σ)) :
    c.refill.2.source.appended = c.source.appended ++ c.written.toList ∧
      c.refill.2.source.departed = c.source.departed ++ (c.unread ++ c.rejected).map .released := by
  rw [source_refill, Audited.releaseAll_eq, written, answer, Audited.releaseAll_eq, List.map_append,
    ← List.append_assoc]
  exact ⟨rfl, rfl⟩

/-- **Refills.**  On every cache, whatever its state and its source, a refill makes the calls it
should, answers by what the source did, and leaves the burst or nothing.  After any operations on a
cache that was created, where the book tells in order how each handle has left that is no longer
unread: a refill enters the burst as what came in, and as what went back the unread handles and a
burst that it does not keep.  So what was taken or forwarded is never released, by this refill or a
later one, because each handle leaves once. -/
theorem refill_settles {memory : Memory} {source : σ} {header : CacheHeader} {size : UInt64}
    {locality : Locality} {c : ReceiveCache σ}
    (hcreate : create memory source header size locality = .ok c) (ops : List CacheOp) :
    (∀ s : ReceiveCache (Logged σ), s.Settles) ∧
    let b := (runNoted ops c.audited).2
    (b.erase = (run ops c).2 ∧ b.refill.1 = (run ops c).2.refill.1 ∧
      b.refill.2.erase = (run ops c).2.refill.2) ∧
    b.source.appended = b.source.departed.map Departure.handle ++ b.unread ∧
    b.refill.2.source.appended = b.source.appended ++ b.written.toList ∧
    b.refill.2.source.departed = b.source.departed ++ (b.unread ++ b.rejected).map .released ∧
    b.refill.2.source.appended =
      b.refill.2.source.departed.map Departure.handle ++ b.refill.2.unread := by
  obtain ⟨-, herase⟩ := erase_runNoted ops c.audited
  have hsound : (runNoted ops c.audited).2.Sound := (sound_create hcreate).runNoted ops
  obtain ⟨hoccurs, hdeparts⟩ := (runNoted ops c.audited).2.book_refill
  obtain ⟨houtcome, hcache⟩ := (runNoted ops c.audited).2.erase_refill
  rw [herase] at houtcome hcache
  exact ⟨settles, ⟨herase, houtcome, hcache⟩, hsound.balance, hoccurs, hdeparts,
    hsound.refill.balance⟩

/-- Two handles of a burst have been read, and one has not; the next burst is too long. -/
def halfRead : ReceiveCache (Logged ScriptedSource) :=
  ⟨.ofIds ⟨0⟩ ⟨0⟩, ⟨⟨misbehaving.batches.tail, #[]⟩, []⟩, #[1, 2, 3], 3, 2, .any⟩

theorem refill_settles_halfRead :
    ∃ c, create (.below 100) misbehaving (.ofIds ⟨0⟩ ⟨0⟩) 3 .any = .ok c ∧
      (halfRead.refill.1 = .error (.overrun 4 3) ∧ halfRead.refill.2.source.log =
        [.released 3, .received ⟨0⟩ ⟨0⟩ 0 3, .released 4, .released 5, .released 6, .released 7]) ∧
      (runNoted [.refill, .take, .forward narrowRing] c.audited).2.refill.2.source.departed =
        [.taken 1, .accepted 2, .released 3, .released 4, .released 5, .released 6,
          .released 7] := by
  set c : ReceiveCache ScriptedSource := ⟨.ofIds ⟨0⟩ ⟨0⟩, misbehaving, #[], 3, 0, .any⟩ with hc
  have hcreate : create (.below 100) misbehaving (.ofIds ⟨0⟩ ⟨0⟩) 3 .any = .ok c := rfl
  obtain ⟨hsettles, -, -, -, hdeparts, -⟩ :=
    refill_settles hcreate [.refill, .take, .forward narrowRing]
  have hlong : halfRead.refill.1 = .error (.overrun 4 3) :=
    ((hsettles halfRead).fails _).mpr (.inr ⟨4, by decide +kernel, .inl (by decide +kernel)⟩)
  refine ⟨c, hcreate, ⟨hlong, (hsettles halfRead).calls.trans ?_⟩, hdeparts.trans ?_⟩
  · decide +kernel
  · rw [hc]
    decide +kernel

end ReceiveCache

end BurstRing
