import BurstRing.Ring.Storage
import Mathlib.Data.Nat.ModEq
import Mathlib.Tactic.ByContra

/-!
# Slots and records

A position lies in the slot that its remainder modulo the capacity names (`Shape.toNat_and_mask`),
also where a claim runs over the end of the storage (`Claim.slot_runs`) and where positions wrap as
words, because the capacity divides `2 ^ 64`.

A slot and an element of a buffer are compared as records, lists of as many bytes as a slot has
(`recordAt`).  Storing an element changes the record of its slot and no other
(`Storage.recordAt_putElement`), and fetching one changes one record of the target
(`Storage.recordAt_getElement`).
-/

namespace BurstRing

/-! ### Powers of two -/

theorem eq_pow_of_isPowerOfTwo {n : Nat} (h : isPowerOfTwo n = true) (hlt : n < 2 ^ 64) :
    ∃ k, k < 64 ∧ n = 2 ^ k := by
  simp only [isPowerOfTwo, Bool.and_eq_true, bne_iff_ne, beq_iff_eq] at h
  obtain ⟨k, hk⟩ := Nat.ne_zero_and_sub_one_eq_zero_iff_isPowerOfTwo.mp h
  refine ⟨k, ?_, hk⟩
  by_contra hge
  have hle : 2 ^ 64 ≤ 2 ^ k := Nat.pow_le_pow_right (by decide) (by omega)
  omega

/-- The low bits of a word are its remainder. -/
theorem toNat_and_sub_one {w : UInt64} (h : isPowerOfTwo w.toNat = true) (p : UInt64) :
    (p &&& (w - 1)).toNat = p.toNat % w.toNat := by
  obtain ⟨k, -, hk⟩ := eq_pow_of_isPowerOfTwo h w.toNat_lt
  have hpos : 0 < w.toNat := hk ▸ Nat.two_pow_pos k
  have hmask : (w - 1).toNat = w.toNat - 1 := by
    rw [UInt64.toNat_sub_of_le, UInt64.toNat_one]
    rwa [UInt64.le_iff_toNat_le, UInt64.toNat_one]
  rw [UInt64.toNat_and, hmask, hk, Nat.and_two_pow_sub_one_eq_mod]

/-! ### The capacity as a power of two -/

namespace Shape

theorem capacity_eq_pow (shape : Shape) : ∃ k, k < 64 ∧ shape.capacity = 2 ^ k := by
  have hmax := shape.capacity_le
  rw [maxCapacity] at hmax
  exact eq_pow_of_isPowerOfTwo shape.capacity_pow (by omega)

theorem capacity_pos (shape : Shape) : 0 < shape.capacity := by
  obtain ⟨k, -, hk⟩ := shape.capacity_eq_pow
  rw [hk]
  exact Nat.two_pow_pos k

theorem capacity_dvd (shape : Shape) : shape.capacity ∣ 2 ^ 64 := by
  obtain ⟨k, hlt, hk⟩ := shape.capacity_eq_pow
  rw [hk]
  exact Nat.pow_dvd_pow 2 (by omega)

@[simp] theorem toNat_capacity (shape : Shape) :
    shape.capacity.toUInt64.toNat = shape.capacity := by
  have hmax := shape.capacity_le
  rw [maxCapacity] at hmax
  exact UInt64.toNat_ofNat_of_lt' (by rw [UInt64.size]; omega)

theorem elementSize_pos' (shape : Shape) : 0 < shape.elementSize :=
  Nat.pos_of_ne_zero shape.elementSize_pos

/-- The low bits of a position are its remainder. -/
theorem toNat_and_mask (shape : Shape) (p : UInt64) :
    (p &&& shape.mask).toNat = p.toNat % shape.capacity := by
  have hpow : isPowerOfTwo shape.capacity.toUInt64.toNat = true := by
    rw [toNat_capacity]
    exact shape.capacity_pow
  rw [mask, toNat_and_sub_one hpow, toNat_capacity]

/-- A wrapped position lies in the slot of the position that has not wrapped. -/
theorem mod_word_mod (shape : Shape) (p : Nat) :
    p % 2 ^ 64 % shape.capacity = p % shape.capacity :=
  Nat.mod_mod_of_dvd p shape.capacity_dvd

/-- Two positions that share a slot are a whole capacity apart. -/
theorem eq_of_mod_eq {shape : Shape} {a p q : Nat} (hp : a ≤ p) (hp' : p < a + shape.capacity)
    (hq : a ≤ q) (hq' : q < a + shape.capacity)
    (h : p % shape.capacity = q % shape.capacity) : p = q := by
  rcases Nat.le_total p q with hle | hle
  · have hd := (Nat.modEq_iff_dvd' hle).mp h
    have hz := Nat.eq_zero_of_dvd_of_lt hd (by omega)
    omega
  · have hd := (Nat.modEq_iff_dvd' hle).mp h.symm
    have hz := Nat.eq_zero_of_dvd_of_lt hd (by omega)
    omega

end Shape

/-- Element `i` of a claim lies in the slot of its position. -/
theorem Claim.slot_runs {shape : Shape} {c : Claim} {i : Nat} (hi : i < c.len.toNat)
    (hlen : c.len.toNat ≤ shape.capacity) :
    (c.runs shape).slot i = (c.start.toNat + i) % shape.capacity := by
  have hmod := Nat.mod_lt c.start.toNat shape.capacity_pos
  rw [Nat.add_mod, Nat.mod_eq_of_lt (by omega : i < shape.capacity)]
  simp only [Runs.slot, Claim.runs, Runs.cut, shape.toNat_and_mask]
  generalize c.start.toNat % shape.capacity = index at *
  by_cases hwrap : i < shape.capacity - index
  · rw [if_pos (by omega), Nat.mod_eq_of_lt (by omega)]
  · rw [if_neg (by omega), Nat.mod_eq_sub_mod (by omega), Nat.mod_eq_of_lt (by omega)]
    omega

/-! ### Bytes -/

namespace Storage

theorem get_set (s : Storage) (i j : Nat) (b : UInt8) :
    (s.set i b).get j = if j = i then b else s.get j := by
  unfold set
  split
  · rename_i hi
    simp only [get, Array.getD_eq_getD_getElem?, Array.getElem?_setIfInBounds]
    grind
  · rename_i hi
    simp only [get, Array.getD_eq_getD_getElem?]
    grind

theorem get_write (source : Array UInt8) (n : Nat) :
    ∀ (s : Storage) (pos offset j : Nat),
      (s.write source n pos offset).get j =
        if pos ≤ j ∧ j < pos + n then source.getD (offset + (j - pos)) 0 else s.get j := by
  induction n with
  | zero => intro s pos offset j; rw [write, if_neg (by omega)]
  | succ n ih =>
      intro s pos offset j
      rw [write, ih, get_set]
      by_cases hj : j = pos
      · subst hj
        rw [if_neg (by omega), if_pos rfl, if_pos (by omega)]
        simp
      · rw [if_neg hj]
        by_cases hin : pos + 1 ≤ j ∧ j < pos + 1 + n
        · rw [if_pos hin, if_pos (by omega)]
          congr 1
          omega
        · rw [if_neg hin, if_neg (by omega)]

@[simp] theorem size_read (s : Storage) (n : Nat) :
    ∀ (target : Array UInt8) (pos offset : Nat),
      (s.read target n pos offset).size = target.size := by
  induction n with
  | zero => intro target pos offset; rw [read]
  | succ n ih => intro target pos offset; rw [read, ih, Array.size_setIfInBounds]

theorem getD_read (s : Storage) (n : Nat) :
    ∀ (target : Array UInt8) (pos offset j : Nat), offset + n ≤ target.size →
      (s.read target n pos offset).getD j 0 =
        if offset ≤ j ∧ j < offset + n then s.get (pos + (j - offset)) else target.getD j 0 := by
  induction n with
  | zero => intro target pos offset j _; rw [read, if_neg (by omega)]
  | succ n ih =>
      intro target pos offset j hsize
      rw [read, ih _ _ _ _ (by rw [Array.size_setIfInBounds]; omega)]
      by_cases hj : j = offset
      · subst hj
        rw [if_neg (by omega), if_pos (by omega)]
        simp [Array.getD_eq_getD_getElem?,
          (by omega : j < target.size)]
      · by_cases hin : offset + 1 ≤ j ∧ j < offset + 1 + n
        · rw [if_pos hin, if_pos (by omega)]
          congr 1
          omega
        · rw [if_neg hin, if_neg (by omega)]
          simp [Array.getD_eq_getD_getElem?, Ne.symm hj]

end Storage

/-! ### Records -/

/-- Record `i` of `buffer`; bytes beyond the buffer are zero. -/
def recordAt (width : Nat) (buffer : Array UInt8) (i : Nat) : List UInt8 :=
  (List.range width).map fun k => buffer.getD (i * width + k) 0

@[simp] theorem length_recordAt (width : Nat) (buffer : Array UInt8) (i : Nat) :
    (recordAt width buffer i).length = width := by
  simp [recordAt]

theorem recordAt_congr {width : Nat} {a b : Array UInt8} {i j : Nat}
    (h : ∀ k, k < width → a.getD (i * width + k) 0 = b.getD (j * width + k) 0) :
    recordAt width a i = recordAt width b j :=
  List.map_congr_left fun k hk => h k (List.mem_range.mp hk)

/-- The byte of one record lies in no other. -/
theorem mem_record_iff {width i j k : Nat} (hk : k < width) :
    i * width ≤ j * width + k ∧ j * width + k < i * width + width ↔ j = i := by
  constructor
  · rintro ⟨h₁, h₂⟩
    rcases Nat.lt_trichotomy j i with h | h | h
    · have := Nat.mul_le_mul_right width h
      rw [Nat.succ_mul] at this
      omega
    · exact h
    · have := Nat.mul_le_mul_right width h
      rw [Nat.succ_mul] at this
      omega
  · rintro rfl
    omega

namespace Storage

variable {shape : Shape} {claim : Claim} {i : Nat}

/-- Storing element `i` of a claim sets the slot of its position. -/
theorem recordAt_putElement (s : Storage) (source : Array UInt8) (j : Nat)
    (hi : i < claim.len.toNat) (hlen : claim.len.toNat ≤ shape.capacity) :
    recordAt shape.elementSize (s.putElement shape claim source i).bytes j =
      if j = (claim.start.toNat + i) % shape.capacity then recordAt shape.elementSize source i
      else recordAt shape.elementSize s.bytes j := by
  have hbyte : ∀ k, k < shape.elementSize →
      (s.putElement shape claim source i).get (j * shape.elementSize + k) =
        if j = (claim.start.toNat + i) % shape.capacity
        then source.getD (i * shape.elementSize + k) 0
        else s.get (j * shape.elementSize + k) := by
    intro k hk
    rw [putElement, get_write, Claim.slot_runs hi hlen]
    simp only [mem_record_iff hk]
    split
    · rename_i hj
      rw [hj, Nat.add_sub_cancel_left]
    · rfl
  split
  · rename_i hj
    exact recordAt_congr fun k hk => by rw [← get, hbyte k hk, if_pos hj]
  · rename_i hj
    exact recordAt_congr fun k hk => by rw [← get, hbyte k hk, if_neg hj, get]

@[simp] theorem size_getElement (s : Storage) (target : Array UInt8) :
    (s.getElement shape claim target i).size = target.size := by
  simp [getElement]

/-- Fetching element `i` of a claim sets record `i` of the target. -/
theorem recordAt_getElement (s : Storage) {target : Array UInt8} (j : Nat)
    (hi : i < claim.len.toNat) (hlen : claim.len.toNat ≤ shape.capacity)
    (hsize : (i + 1) * shape.elementSize ≤ target.size) :
    recordAt shape.elementSize (s.getElement shape claim target i) j =
      if j = i then
        recordAt shape.elementSize s.bytes ((claim.start.toNat + i) % shape.capacity)
      else recordAt shape.elementSize target j := by
  rw [Nat.succ_mul] at hsize
  have hbyte : ∀ k, k < shape.elementSize →
      (s.getElement shape claim target i).getD (j * shape.elementSize + k) 0 =
        if j = i
        then s.get ((claim.start.toNat + i) % shape.capacity * shape.elementSize + k)
        else target.getD (j * shape.elementSize + k) 0 := by
    intro k hk
    rw [getElement, getD_read _ _ _ _ _ _ hsize, Claim.slot_runs hi hlen]
    simp only [mem_record_iff hk]
    split
    · rename_i hj
      rw [hj, Nat.add_sub_cancel_left]
    · rfl
  split
  · rename_i hj
    exact recordAt_congr fun k hk => by rw [hbyte k hk, if_pos hj, get]
  · rename_i hj
    exact recordAt_congr fun k hk => by rw [hbyte k hk, if_neg hj]

end Storage

end BurstRing
