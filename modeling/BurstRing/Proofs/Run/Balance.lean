import Mathlib.Algebra.BigOperators.Group.List.Basic
import BurstRing.Proofs.Run.Consumer
import BurstRing.Proofs.Run.Halting

/-!
# The balance of a session

Every move of a session keeps two things (`Session.Balanced`): each producer's cache has the book of
all that has been done to it, and what the producers have forwarded has been taken by the consumer
or is in the ring.  The switch plays no part in it.  When all workers are over nothing is pending,
and the report reads its figures off books that balance (`Session.Balanced.report_closes`).
-/

namespace BurstRing

open ReceiveCache

namespace Session

/-! ### What a schedule does to a cache -/

/-- What a move does to the cache of producer `i`. -/
def cacheOps (i : Nat) (s : Session) : SessionMove → List CacheOp
  | .producer j => if j = i then (s.producers[i]?.map (Producer.ops s.ring)).getD [] else []
  | .consumer | .stop => []

/-- What a schedule does to the cache of producer `i`. -/
def cacheHistory (i : Nat) : List SessionMove → Session → List CacheOp
  | [], _ => []
  | move :: schedule, s => s.cacheOps i move ++ cacheHistory i schedule (s.act move)

/-! ### The balance -/

/-- The sum of a list after one entry has grown. -/
theorem sum_map_set {α : Type} (f : α → Nat) {x y : α} {n : Nat} (hf : f y = f x + n) :
    ∀ {l : List α} {i : Nat}, l[i]? = some x →
      ((l.set i y).map f).sum = (l.map f).sum + n := by
  intro l
  induction l with
  | nil => intro i hi; cases hi
  | cons a l ih =>
      intro i hi
      cases i with
      | zero =>
          cases hi
          rw [List.set_cons_zero, List.map_cons, List.map_cons, List.sum_cons, List.sum_cons, hf]
          omega
      | succ i =>
          rw [List.set_cons_succ, List.map_cons, List.map_cons, List.sum_cons, List.sum_cons,
            ih hi, Nat.add_assoc]

/-- Handles forwarded by all producers. -/
def forwarded (s : Session) : Nat := (s.producers.toList.map fun p => p.forwarded.toNat).sum

/-- All producers keep their books, where `ops` is what has been done to their caches since they
were as in `begun`, and what they have forwarded has been taken by the consumer or is in the
ring. -/
structure Balanced (size : Nat) (begun : Array Producer) (ops : Nat → List CacheOp)
    (s : Session) : Prop where
  size_eq : s.producers.size = begun.size
  subscribed : s.producers.size ≤ s.subscriptions.size
  keeps : ∀ (i : Nat) (p₀ p : Producer), begun[i]? = some p₀ → s.producers[i]? = some p →
    p.Keeps size (CacheOp.refills (ops i)) (runNoted (ops i) p₀.cache.audited).2
  balance : ∃ (q : RecordQueue) (taken : Nat), s.ring.Represents q ∧ q.width = handleSize ∧
    s.consumer.Serves taken ∧ s.forwarded = taken + q.records.length

variable {size : Nat} {begun : Array Producer} {ops : Nat → List CacheOp} {s : Session}

/-- Before any move all books are empty, and so is the ring. -/
theorem Balanced.initial (hsub : s.producers.size ≤ s.subscriptions.size)
    (hworkers : ∀ p ∈ s.producers, p.Keeps size 0 p.cache.audited ∧ p.forwarded = 0)
    (capacity : Nat) (hring : s.ring.Represents (.empty capacity handleSize))
    (hserves : s.consumer.Serves 0) : s.Balanced size s.producers fun _ => [] := by
  refine ⟨rfl, hsub, fun i p₀ p hp₀ hp => ?_, .empty capacity handleSize, 0, hring, rfl, hserves, ?_⟩
  · obtain rfl : p₀ = p := Option.some.inj (hp₀.symm.trans hp)
    exact (hworkers p₀ (Array.mem_of_getElem? hp)).1
  · refine List.sum_eq_zero fun n hn => ?_
    obtain ⟨p, hp, rfl⟩ := List.mem_map.mp hn
    exact congrArg UInt64.toNat (hworkers p (Array.mem_toList_iff.mp hp)).2

/-! ### Moves -/

theorem cacheOps_producer {i : Nat} {p : Producer} (hp : s.producers[i]? = some p) :
    s.cacheOps i (.producer i) = p.ops s.ring := by
  rw [cacheOps, if_pos rfl, hp]
  rfl

theorem cacheOps_of_ne {i j : Nat} (h : i ≠ j) : s.cacheOps j (.producer i) = [] :=
  if_neg h

theorem cacheOps_of_none {i : Nat} (hp : s.producers[i]? = none) (j : Nat) :
    s.cacheOps j (.producer i) = [] := by
  by_cases hij : i = j
  · rw [← hij, cacheOps, if_pos rfl, hp]
    rfl
  · exact cacheOps_of_ne hij

theorem Balanced.moveProducer (h : s.Balanced size begun ops) (i : Nat)
    (hfew : i < begun.size →
      CacheOp.refills (ops i ++ s.cacheOps i (.producer i)) * size < UInt64.size) :
    (s.moveProducer i).Balanced size begun fun j => ops j ++ s.cacheOps j (.producer i) := by
  rcases hp : s.producers[i]? with - | p
  · -- There is no such producer, and the move changes nothing.
    rw [moveProducer_of_none hp]
    simp only [cacheOps_of_none hp, List.append_nil]
    exact h
  · obtain ⟨hi, -⟩ := Array.getElem?_eq_some_iff.mp hp
    obtain ⟨q, taken, hring, hwidth, hserves, hbalance⟩ := h.balance
    have hi' : i < begun.size := h.size_eq ▸ hi
    have hfew' : (CacheOp.refills (ops i) + CacheOp.refills (p.ops s.ring)) * size <
        UInt64.size := by
      rw [← CacheOp.refills_append, ← cacheOps_producer hp]
      exact hfew hi'
    have hkeeps := h.keeps i _ p (Array.getElem?_eq_getElem hi') hp
    obtain ⟨records, hring', hforwarded, hkeeps'⟩ := hkeeps.advance s.stop hring hwidth hfew'
    obtain ⟨links, hmove⟩ := moveProducer_of_some hp (hi.trans_le h.subscribed)
    rw [hmove]
    refine ⟨?_, ?_, ?_, _, taken, hring', hwidth, hserves, ?_⟩
    · exact Array.size_setIfInBounds.trans h.size_eq
    · exact Array.size_setIfInBounds.trans_le h.subscribed
    · intro j p₀ p' hp₀ hp'
      change (s.producers.setIfInBounds i _)[j]? = some p' at hp'
      rw [Array.getElem?_setIfInBounds, if_pos hi] at hp'
      -- The books of all other producers stay as they are.
      by_cases hij : i = j
      · subst hij
        rw [if_pos rfl] at hp'
        cases hp'
        obtain rfl : begun[i] = p₀ := (Array.getElem?_eq_some_iff.mp hp₀).2
        rw [cacheOps_producer hp, CacheOp.refills_append, runNoted_append]
        exact hkeeps'
      · rw [if_neg hij] at hp'
        rw [cacheOps_of_ne hij, List.append_nil]
        exact h.keeps j p₀ p' hp₀ hp'
    · have hsum := sum_map_set (fun p : Producer => p.forwarded.toNat) hforwarded
        (l := s.producers.toList) (i := i) (by rwa [Array.getElem?_toList])
      rw [forwarded, Array.toList_setIfInBounds, hsum, List.length_append, ← Nat.add_assoc]
      exact congrArg (· + records.length) hbalance

theorem Balanced.moveConsumer (h : s.Balanced size begun ops) :
    s.moveConsumer.Balanced size begun ops := by
  obtain ⟨q, taken, hring, hwidth, hserves, hbalance⟩ := h.balance
  obtain ⟨n, hn, hring', hserves'⟩ := hserves.advance s.stop hring hwidth
  refine ⟨h.size_eq, h.subscribed, h.keeps, _, _, hring', hwidth, hserves', ?_⟩
  change s.forwarded = _
  rw [hbalance, List.length_drop]
  omega

theorem Balanced.act (h : s.Balanced size begun ops) (move : SessionMove)
    (hfew : ∀ i < begun.size,
      CacheOp.refills (ops i ++ s.cacheOps i move) * size < UInt64.size) :
    (s.act move).Balanced size begun fun i => ops i ++ s.cacheOps i move := by
  cases move with
  | producer i => exact h.moveProducer i (hfew i)
  | consumer =>
      simp only [cacheOps, List.append_nil]
      exact h.moveConsumer
  | stop =>
      simp only [cacheOps, List.append_nil]
      exact ⟨h.size_eq, h.subscribed, h.keeps, h.balance⟩

theorem Balanced.follow (schedule : List SessionMove) :
    ∀ {s : Session} {ops : Nat → List CacheOp}, s.Balanced size begun ops →
      (∀ i < begun.size,
        CacheOp.refills (ops i ++ s.cacheHistory i schedule) * size < UInt64.size) →
      (s.follow schedule).Balanced size begun fun i => ops i ++ s.cacheHistory i schedule := by
  induction schedule with
  | nil =>
      intro s ops h _
      simp only [cacheHistory, List.append_nil]
      exact h
  | cons move schedule ih =>
      intro s ops h hfew
      simp only [cacheHistory, ← List.append_assoc] at hfew ⊢
      -- The refills of the first move are among those of the whole schedule.
      refine ih (h.act move fun i hi => ?_) hfew
      have hle := CacheOp.refills_append (ops i ++ s.cacheOps i move)
        ((s.act move).cacheHistory i schedule)
      exact (Nat.mul_le_mul_right size (hle ▸ Nat.le_add_right _ _)).trans_lt (hfew i hi)

/-! ### The end -/

theorem mapM_ok {α β ε : Type} {f : α → Except ε β} {g : α → β} :
    ∀ {l : List α}, (∀ a ∈ l, f a = .ok (g a)) → l.mapM f = .ok (l.map g) := by
  intro l
  induction l with
  | nil => intro _; rfl
  | cons a l ih =>
      intro h
      rw [List.mapM_cons, h a List.mem_cons_self,
        ih fun b hb => h b (List.mem_cons_of_mem _ hb)]
      rfl

/-- A total of words is the total of their numbers as a word. -/
theorem foldl_amount {α : Type} (amount : α → UInt64) (l : List α) :
    ∀ total : UInt64, l.foldl (fun sum a => sum + amount a) total =
      total + (l.map fun a => (amount a).toNat).sum.toUInt64 := by
  induction l with
  | nil => intro total; exact (UInt64.add_zero total).symm
  | cons a l ih =>
      intro total
      have hword : (amount a).toNat.toUInt64 = amount a := UInt64.ofNat_toNat
      rw [List.foldl_cons, ih, List.map_cons, List.sum_cons, toUInt64_add, hword, UInt64.add_assoc]

theorem Balanced.keeps_of_mem (h : s.Balanced size begun ops) {p : Producer}
    (hp : p ∈ s.producers.toList) : ∃ refills b, p.Keeps size refills b := by
  obtain ⟨i, hi, rfl⟩ := Array.mem_iff_getElem.mp (Array.mem_toList_iff.mp hp)
  exact ⟨_, _, h.keeps i _ _ (Array.getElem?_eq_getElem (h.size_eq ▸ hi))
    (Array.getElem?_eq_getElem hi)⟩

/-- The figures of a producer, zero until it is over. -/
def figures (p : Producer) : ProducerStats := p.stats?.getD ⟨0, 0, 0⟩

/-- Of a producer that is over the report takes the figures, and they add up. -/
theorem Balanced.account_eq (h : s.Balanced size begun ops) {p : Producer}
    (hp : p ∈ s.producers.toList) (hover : p.isOver = true) :
    account p = .ok (figures p) ∧ (figures p).forwarded = p.forwarded ∧
      (figures p).generated.toNat = p.forwarded.toNat + (figures p).released.toNat := by
  obtain ⟨refills, b, hkeeps⟩ := h.keeps_of_mem hp
  obtain ⟨stats, hdone⟩ := hkeeps.done hover
  have hfigures : figures p = stats := by
    rw [figures, Producer.stats?, hdone]
    rfl
  obtain ⟨hgenerated, hforwarded, hreleased⟩ := hkeeps.stats hdone
  rw [account, hdone, hfigures, hgenerated, hreleased]
  exact ⟨rfl, hforwarded, hkeeps.count_eq.symm⟩

/-- When all workers are over, the accounts are there, and they close. -/
theorem Balanced.report_closes (h : s.Balanced size begun ops) (hover : s.isOver = true) :
    ∃ r, s.report = .ok r ∧ r.closes = true := by
  obtain ⟨hproducers, hconsumer⟩ := Bool.and_eq_true_iff.mp hover
  obtain ⟨q, taken, hring, -, hserves, hbalance⟩ := h.balance
  obtain ⟨loop, hloop, hpending⟩ := hserves.ended hconsumer
  obtain ⟨delivered, hsink, htaken⟩ := hserves.tallies.balance
  set workers := s.producers.toList with hworkers
  have hstats : ∀ p ∈ workers, account p = .ok (figures p) ∧
      (figures p).forwarded = p.forwarded ∧
      (figures p).generated.toNat = p.forwarded.toNat + (figures p).released.toNat :=
    fun p hp => h.account_eq hp
      (Array.all_eq_true_iff_forall_mem.mp hproducers p (Array.mem_toList_iff.mp hp))
  -- Every figure of the report is the word of a number, and the numbers add up.
  have htotal : ∀ amount : ProducerStats → UInt64,
      (workers.map figures).foldl (fun sum stat => sum + amount stat) 0 =
        (workers.map fun p => (amount (figures p)).toNat).sum.toUInt64 := by
    intro amount
    rw [foldl_amount, UInt64.zero_add, List.map_map]
    rfl
  have hforwarded : (workers.map fun p => (figures p).forwarded.toNat).sum = s.forwarded :=
    congrArg List.sum (List.map_congr_left fun p hp =>
      congrArg UInt64.toNat (hstats p hp).2.1)
  have hgenerated : (workers.map fun p => (figures p).generated.toNat).sum =
      s.forwarded + (workers.map fun p => (figures p).released.toNat).sum := by
    rw [forwarded, ← List.sum_map_add]
    exact congrArg List.sum (List.map_congr_left fun p hp => (hstats p hp).2.2)
  have hdelivered : s.forwarded = delivered + s.ring.count := by
    rw [hpending] at htaken
    rw [hbalance, ← htaken, hring.count_eq]
    rfl
  refine ⟨_, by rw [report, mapM_ok fun p hp => (hstats p hp).1, hloop]; rfl, ?_⟩
  rw [SessionReport.closes]
  dsimp only
  rw [htotal, htotal, htotal, hforwarded, hgenerated, toUInt64_add, Consumer.delivered, hsink,
    ← toUInt64_add, ← hdelivered, Bool.and_eq_true_iff]
  exact ⟨beq_self_eq_true _, beq_self_eq_true _⟩

end Session

end BurstRing
