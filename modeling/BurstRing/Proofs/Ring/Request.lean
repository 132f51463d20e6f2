import BurstRing.Ring.Basic
import BurstRing.Proofs.Ring.Bytes

/-!
# Which requests are refused

A request has one of four answers, and each of them tells what the request is like: an element of
another width than the ring's, an empty buffer, a buffer of no whole number of elements, or a number
of elements (`Ring.checkElements_eq_error`, `Ring.checkElements_eq_ok`).  A request for handles is
one for elements of their width (`Ring.checkElements_handles`).
-/

namespace BurstRing.Ring

variable {shape : Shape} {len elementSize n : Nat}

theorem checkElements_eq_ok (h : checkElements shape len elementSize = .ok n) :
    elementSize = shape.elementSize ∧ len ≠ 0 ∧ len % elementSize = 0 ∧ len / elementSize = n := by
  rw [checkElements] at h
  split at h
  · cases h
  · rename_i hwidth
    split at h
    · cases h
    · rename_i hlen
      split at h
      · cases h
      · rename_i hmod
        exact ⟨not_not.mp hwidth, hlen, not_not.mp hmod, Except.ok.inj h⟩

theorem checkElements_eq_error {cause : RingError}
    (h : checkElements shape len elementSize = .error cause) :
    elementSize ≠ shape.elementSize ∧ cause = .elementSizeMismatch shape.elementSize elementSize ∨
      elementSize = shape.elementSize ∧ len = 0 ∧ cause = .emptyRequest ∨
      elementSize = shape.elementSize ∧ len ≠ 0 ∧ len % elementSize ≠ 0 ∧
        cause = .misalignedBuffer len elementSize := by
  rw [checkElements] at h
  split at h
  · rename_i hwidth
    cases h
    exact .inl ⟨hwidth, rfl⟩
  · rename_i hwidth
    split at h
    · rename_i hlen
      cases h
      exact .inr (.inl ⟨not_not.mp hwidth, hlen, rfl⟩)
    · rename_i hlen
      split at h
      · rename_i hmod
        cases h
        exact .inr (.inr ⟨not_not.mp hwidth, hlen, hmod, rfl⟩)
      · cases h

/-- The elements asked for lie in the buffer. -/
theorem checkElements_le (h : checkElements shape len elementSize = .ok n) :
    n * shape.elementSize ≤ len := by
  obtain ⟨rfl, -, -, rfl⟩ := checkElements_eq_ok h
  exact Nat.div_mul_le_self _ _

theorem checkElements_pos (h : checkElements shape len elementSize = .ok n) : 0 < n := by
  obtain ⟨-, hlen, hmod, rfl⟩ := checkElements_eq_ok h
  have hdvd := Nat.dvd_of_mod_eq_zero hmod
  have hpos := Nat.pos_of_ne_zero hlen
  exact Nat.div_pos (Nat.le_of_dvd hpos hdvd) (Nat.pos_of_dvd_of_pos hdvd hpos)

/-- Handles are checked as their bytes are. -/
theorem checkElements_handles (shape : Shape) (handles : Array UInt64) :
    checkElements shape (Handle.pack handles).size handleSize =
      (checkHandles shape handles.size).map fun _ => handles.size := by
  rw [Handle.size_pack, checkElements, checkHandles]
  by_cases hwidth : shape.elementSize = handleSize
  · rw [if_neg (not_not.mpr hwidth.symm), if_neg (not_not.mpr hwidth)]
    by_cases hsize : handles.size = 0
    · rw [if_pos hsize, if_pos (by rw [hsize, Nat.zero_mul])]
      rfl
    · rw [if_neg hsize, if_neg (Nat.mul_ne_zero hsize (by decide)),
        if_neg (not_not.mpr (Nat.mul_mod_left ..)), Nat.mul_div_cancel _ (by decide)]
      rfl
  · rw [if_pos (Ne.symm hwidth), if_pos hwidth]
    rfl

theorem checkElements_of_checkHandles {handles : Array UInt64}
    (h : checkHandles shape handles.size = .ok ()) :
    checkElements shape (Handle.pack handles).size handleSize = .ok handles.size := by
  rw [checkElements_handles, h]
  rfl

end BurstRing.Ring
