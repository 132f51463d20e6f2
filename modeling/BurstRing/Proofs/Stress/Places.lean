import BurstRing.Stress.Check
import Mathlib.Data.List.Nodup
import Mathlib.Data.List.Perm.Subperm
import Mathlib.Algebra.Ring.Nat
import Mathlib.Order.Basic

/-!
# Tags and their places

As long as both numbers of a tag fit in 32 bits, it is a word that tells them apart.  A plan only
`Knows` tags of its own producers and within their sequences, and gives each of them a place of
its own below the total.

The marks of a plan then work as a set of tags (`StressPlan.Marks`): a tag that the plan knows and
that is not yet in the set is marked without complaint.
-/

namespace BurstRing

/-! ### The two numbers of a tag -/

namespace Tag

/-- Nothing runs over: the producer's number and the sequence stand side by side. -/
theorem toNat_ofPair {p s : Nat} (hp : p < UInt32.size) (hs : s < UInt32.size) :
    (ofPair p.toUInt64 s.toUInt64).toNat = p * 2 ^ sequenceBits + s := by
  have hshift : p <<< sequenceBits < 2 ^ 64 := by
    rw [Nat.shiftLeft_eq]
    exact Nat.mul_lt_mul_of_pos_right hp (by decide)
  have hp' : p.toUInt64.toNat = p := Nat.mod_eq_of_lt (hp.trans (by decide))
  have hs' : s.toUInt64.toNat = s := Nat.mod_eq_of_lt (hs.trans (by decide))
  have hor : (ofPair p.toUInt64 s.toUInt64).toNat = p <<< sequenceBits % 2 ^ 64 ||| s := by
    rw [ofPair, UInt64.toNat_or, UInt64.toNat_shiftLeft, hp', hs']
    rfl
  rw [hor, Nat.mod_eq_of_lt hshift, ← Nat.shiftLeft_add_eq_or_of_lt hs, Nat.shiftLeft_eq]

theorem toNat_producer (tag : UInt64) : (producer tag).toNat = tag.toNat / 2 ^ sequenceBits := by
  rw [producer, UInt64.toNat_shiftRight]
  exact Nat.shiftRight_eq_div_pow _ _

theorem toNat_sequence (tag : UInt64) : (sequence tag).toNat = tag.toNat % 2 ^ sequenceBits := by
  have hmask : ((1 <<< sequenceBits.toUInt64) - 1 : UInt64).toNat = 2 ^ sequenceBits - 1 := by
    decide
  rw [sequence, UInt64.toNat_and, hmask, Nat.and_two_pow_sub_one_eq_mod]

theorem toNat_producer_ofPair {p s : Nat} (hp : p < UInt32.size) (hs : s < UInt32.size) :
    (producer (ofPair p.toUInt64 s.toUInt64)).toNat = p := by
  have hnone : s / 2 ^ sequenceBits = 0 := Nat.div_eq_of_lt hs
  rw [toNat_producer, toNat_ofPair hp hs, Nat.mul_comm,
    Nat.mul_add_div (Nat.two_pow_pos sequenceBits), hnone, Nat.add_zero]

theorem toNat_sequence_ofPair {p s : Nat} (hp : p < UInt32.size) (hs : s < UInt32.size) :
    (sequence (ofPair p.toUInt64 s.toUInt64)).toNat = s := by
  rw [toNat_sequence, toNat_ofPair hp hs, Nat.mul_comm, Nat.mul_add_mod]
  exact Nat.mod_eq_of_lt hs

/-- The two numbers are all there is to a tag. -/
theorem eq_of_numbers_eq {tag tag' : UInt64} (hproducer : producer tag = producer tag')
    (hsequence : sequence tag = sequence tag') : tag = tag' := by
  refine UInt64.toNat_inj.mp ?_
  rw [← Nat.div_add_mod tag.toNat (2 ^ sequenceBits), ← toNat_producer, ← toNat_sequence,
    hproducer, hsequence, toNat_producer, toNat_sequence, Nat.div_add_mod]

end Tag

namespace StressPlan

theorem ofWords_eq_ok {producers perProducer : UInt64} {plan : StressPlan}
    (h : ofWords producers perProducer = .ok plan) :
    plan.producers = producers.toNat ∧ plan.perProducer = perProducer.toNat := by
  rw [ofWords] at h
  split at h
  · split at h
    · cases h
      exact ⟨rfl, rfl⟩
    · cases h
  · cases h

variable (plan : StressPlan)

/-- All handles together can be counted by a word. -/
theorem total_lt : plan.total < UInt64.size :=
  Nat.mul_lt_mul'' plan.producers_lt plan.perProducer_lt

/-- A ring for the check is one that was created. -/
theorem ring_eq_ok {overflow : Overflow} {memory : Memory} {ring : Ring}
    (h : plan.ring overflow memory = .ok ring) :
    ∃ capacity, Ring.withHandles memory ringName capacity .multi .single = .ok ring := by
  rw [StressPlan.ring] at h
  cases hcapacity : plan.capacity overflow with
  | error panic =>
      rw [hcapacity] at h
      cases h
  | ok capacity =>
      rw [hcapacity] at h
      cases hring : Ring.withHandles memory ringName capacity .multi .single with
      | error cause =>
          simp only [Except.mapError, hring, bind, Except.bind] at h
          cases h
      | ok created =>
          simp only [Except.mapError, hring, bind, Except.bind] at h
          cases h
          exact ⟨capacity, hring⟩

/-! ### Tags of a plan -/

/-- The tag of handle number `sequence` of `producer`. -/
def tag (producer sequence : Nat) : UInt64 := Tag.ofPair producer.toUInt64 sequence.toUInt64

/-- The tag is that of a handle that a producer of the plan sends. -/
def Knows (tag : UInt64) : Prop :=
  (Tag.producer tag).toNat < plan.producers ∧ (Tag.sequence tag).toNat < plan.perProducer

/-- The place of the handle with this tag. -/
def placeOf (tag : UInt64) : Nat :=
  plan.place (Tag.producer tag).toNat (Tag.sequence tag).toNat

variable {plan} {producer sequence : Nat}

theorem toNat_tag (hp : producer < plan.producers) (hs : sequence < plan.perProducer) :
    (tag producer sequence).toNat = producer * 2 ^ Tag.sequenceBits + sequence :=
  Tag.toNat_ofPair (hp.trans plan.producers_lt) (hs.trans plan.perProducer_lt)

theorem producer_tag (hp : producer < plan.producers) (hs : sequence < plan.perProducer) :
    (Tag.producer (tag producer sequence)).toNat = producer :=
  Tag.toNat_producer_ofPair (hp.trans plan.producers_lt) (hs.trans plan.perProducer_lt)

theorem sequence_tag (hp : producer < plan.producers) (hs : sequence < plan.perProducer) :
    (Tag.sequence (tag producer sequence)).toNat = sequence :=
  Tag.toNat_sequence_ofPair (hp.trans plan.producers_lt) (hs.trans plan.perProducer_lt)

theorem knows_tag (hp : producer < plan.producers) (hs : sequence < plan.perProducer) :
    plan.Knows (tag producer sequence) :=
  ⟨(producer_tag hp hs).trans_lt hp, (sequence_tag hp hs).trans_lt hs⟩

theorem placeOf_tag (hp : producer < plan.producers) (hs : sequence < plan.perProducer) :
    plan.placeOf (tag producer sequence) = plan.place producer sequence := by
  rw [placeOf, producer_tag hp hs, sequence_tag hp hs]

theorem size_batch (plan : StressPlan) (producer sequence : Nat) :
    (plan.batch producer sequence).size = min stressBatch (plan.perProducer - sequence) := by
  rw [batch, Array.size_map, Array.size_range]

/-- The first `n` handles of a batch. -/
theorem take_batch (plan : StressPlan) (producer sequence : Nat) {n : Nat}
    (hn : n ≤ (plan.batch producer sequence).size) :
    (plan.batch producer sequence).toList.take n =
      (List.range' sequence n).map (tag producer) := by
  rw [size_batch] at hn
  rw [batch, Array.toList_map, Array.toList_range, ← List.map_take, List.take_range,
    Nat.min_eq_left hn, List.range'_eq_map_range, List.map_map]
  rfl

/-! ### Places -/

variable {t t' : UInt64}

theorem Knows.placeOf_lt (h : plan.Knows t) : plan.placeOf t < plan.total := by
  calc plan.placeOf t < (Tag.producer t).toNat * plan.perProducer + plan.perProducer :=
        Nat.add_lt_add_left h.2 _
    _ = ((Tag.producer t).toNat + 1) * plan.perProducer := (Nat.succ_mul _ _).symm
    _ ≤ plan.total := Nat.mul_le_mul_right _ h.1

/-- No two tags share a place. -/
theorem Knows.eq_of_placeOf_eq (h : plan.Knows t) (h' : plan.Knows t')
    (heq : plan.placeOf t = plan.placeOf t') : t = t' := by
  rw [placeOf, place, placeOf, place, Nat.mul_comm, Nat.mul_comm _ plan.perProducer] at heq
  refine Tag.eq_of_numbers_eq (UInt64.toNat_inj.mp ?_) (UInt64.toNat_inj.mp ?_)
  · have hdiv := congrArg (· / plan.perProducer) heq
    simpa only [Nat.mul_add_div plan.perProducer_pos, Nat.div_eq_of_lt h.2, Nat.div_eq_of_lt h'.2,
      Nat.add_zero] using hdiv
  · have hmod := congrArg (· % plan.perProducer) heq
    simpa only [Nat.mul_add_mod, Nat.mod_eq_of_lt h.2, Nat.mod_eq_of_lt h'.2] using hmod

variable {tags : List UInt64}

theorem subperm_places (hknows : ∀ t ∈ tags, plan.Knows t) (hnodup : tags.Nodup) :
    (tags.map plan.placeOf).Subperm (List.range plan.total) := by
  refine List.subperm_of_subset ?_ fun place hmem => ?_
  · exact hnodup.map_on fun t ht t' ht' => (hknows t ht).eq_of_placeOf_eq (hknows t' ht')
  · obtain ⟨t, ht, rfl⟩ := List.mem_map.mp hmem
    exact List.mem_range.mpr (hknows t ht).placeOf_lt

theorem length_le_total (hknows : ∀ t ∈ tags, plan.Knows t) (hnodup : tags.Nodup) :
    tags.length ≤ plan.total := by
  have hle := (subperm_places hknows hnodup).length_le
  rwa [List.length_map, List.length_range] at hle

/-- There are no more tags than places, so when there are as many, none is missing. -/
theorem mem_of_length_eq (hknows : ∀ t ∈ tags, plan.Knows t) (hnodup : tags.Nodup)
    (hall : tags.length = plan.total) (ht : plan.Knows t) : t ∈ tags := by
  have hperm := (subperm_places hknows hnodup).perm_of_length_le
    (by rw [List.length_map, List.length_range, hall])
  obtain ⟨t', ht', heq⟩ :=
    List.mem_map.mp (hperm.mem_iff.mpr (List.mem_range.mpr ht.placeOf_lt))
  exact (hknows t' ht').eq_of_placeOf_eq ht heq ▸ ht'

/-! ### Marks -/

/-- The marked places are those of `tags`. -/
structure Marks (plan : StressPlan) (tags : List UInt64) (seen : Array Bool) : Prop where
  size : seen.size = plan.total
  marked : ∀ place, seen.getD place false = true ↔ ∃ t ∈ tags, plan.placeOf t = place

theorem marks_nil (plan : StressPlan) : plan.Marks [] (Array.replicate plan.total false) where
  size := Array.size_replicate
  marked place := by
    rw [Array.getD_eq_getD_getElem?, Array.getElem?_replicate]
    split <;> simp

variable {seen : Array Bool}

/-- A tag that is not among the marked ones is marked. -/
theorem Marks.mark (h : plan.Marks tags seen) (hknows : ∀ t ∈ tags, plan.Knows t)
    (ht : plan.Knows t) (hnew : t ∉ tags) :
    ∃ seen', plan.mark seen t = .ok seen' ∧ plan.Marks (tags ++ [t]) seen' := by
  have hlt : plan.placeOf t < seen.size := h.size ▸ ht.placeOf_lt
  have hfree : ¬ seen.getD (plan.placeOf t) false = true := by
    rw [h.marked]
    rintro ⟨t', ht', heq⟩
    exact hnew ((hknows t' ht').eq_of_placeOf_eq ht heq ▸ ht')
  refine ⟨seen.setIfInBounds (plan.placeOf t) true, ?_, ?_, fun place => ?_⟩
  · rw [StressPlan.mark, if_neg (not_or.mpr ⟨Nat.not_le.mpr ht.1, Nat.not_le.mpr ht.2⟩)]
    exact if_neg hfree
  · rw [Array.size_setIfInBounds, h.size]
  · have hset : (seen.setIfInBounds (plan.placeOf t) true).getD place false = true ↔
        seen.getD place false = true ∨ plan.placeOf t = place := by
      rw [Array.getD_eq_getD_getElem?, Array.getD_eq_getD_getElem?, Array.getElem?_setIfInBounds]
      by_cases heq : plan.placeOf t = place
      · simp [heq, heq ▸ hlt]
      · simp [heq]
    simp only [hset, h.marked, List.mem_append, List.mem_singleton, or_and_right, exists_or,
      exists_eq_left]

/-- So are tags one after another. -/
theorem Marks.foldlM {new : List UInt64} :
    ∀ {tags : List UInt64} {seen : Array Bool}, plan.Marks tags seen →
      (∀ t ∈ tags ++ new, plan.Knows t) → (tags ++ new).Nodup →
      ∃ seen', new.foldlM plan.mark seen = .ok seen' ∧ plan.Marks (tags ++ new) seen' := by
  induction new with
  | nil => intro tags seen h _ _; exact ⟨seen, rfl, by rwa [List.append_nil]⟩
  | cons t new ih =>
      intro tags seen h hknows hnodup
      have hmem : ∀ t' ∈ tags, plan.Knows t' := fun t' ht' => hknows t' (List.mem_append_left _ ht')
      have hnew : t ∉ tags := fun ht =>
        (List.nodup_append.mp hnodup).2.2 t ht t List.mem_cons_self rfl
      obtain ⟨seen', hmark, h'⟩ := h.mark hmem (hknows t (by simp)) hnew
      rw [List.append_cons] at hknows hnodup ⊢
      obtain ⟨seen'', hmarks, h''⟩ := ih h' hknows hnodup
      refine ⟨seen'', ?_, h''⟩
      rw [List.foldlM_cons, hmark]
      exact hmarks

end StressPlan

end BurstRing
