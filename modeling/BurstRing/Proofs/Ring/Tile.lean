import BurstRing.Ring.Cursors
import Mathlib.Data.List.Basic
import Mathlib.Algebra.BigOperators.Group.List.Basic
import Mathlib.Algebra.Ring.Nat

/-!
# Claims that tile a range

A claim covers the positions from its start up to its stop.  Claims *tile* a range of positions
when they follow one another from its one end to its other without a gap and none is empty
(`Tile`).  Then no two of them share a position (`Tile.apart`), together they cover exactly the
range (`Tile.covers_iff`), and their lengths add up to its length (`Tile.sum_len`).

The claims granted on one side tile what its head has passed.  A grant adds a claim at the far end
(`Tile.snoc`), and the only claim that can be published is the one at the near end
(`Tile.eq_cons_of_mem`).
-/

namespace BurstRing

namespace Claim

/-- Position `p` lies in the range. -/
def Covers (c : Claim) (p : Nat) : Prop := c.start.toNat ≤ p ∧ p < c.stop.toNat

/-- No position lies in both ranges. -/
def Apart (a b : Claim) : Prop := ∀ p, a.Covers p → ¬ b.Covers p

theorem Apart.symm {a b : Claim} (h : a.Apart b) : b.Apart a := fun p hb ha => h p ha hb

theorem apart_of_le {a b : Claim} (h : a.stop.toNat ≤ b.start.toNat) : a.Apart b := by
  rintro p ⟨-, ha⟩ ⟨hb, -⟩
  omega

theorem toNat_len {c : Claim} (h : c.start.toNat ≤ c.stop.toNat) :
    c.len.toNat = c.stop.toNat - c.start.toNat :=
  UInt64.toNat_sub_of_le _ _ (UInt64.le_iff_toNat_le.mpr h)

/-- A claim that does not run over `2 ^ 64` stops its length after its start. -/
theorem toNat_stop {c : Claim} (h : c.start.toNat + c.len.toNat < 2 ^ 64) :
    c.stop.toNat = c.start.toNat + c.len.toNat := by
  have hstop : c.stop = c.start + c.len := by
    rw [len, UInt64.add_comm, UInt64.sub_add_cancel]
  rw [hstop, UInt64.toNat_add, Nat.mod_eq_of_lt h]

/-- The position of element `i` lies in the range. -/
theorem covers_add {c : Claim} {i : Nat} (h : c.start.toNat ≤ c.stop.toNat)
    (hi : i < c.len.toNat) : c.Covers (c.start.toNat + i) := by
  rw [toNat_len h] at hi
  exact ⟨by omega, by omega⟩

end Claim

/-- The claims follow one another from `a` to `b` without a gap, and none is empty. -/
inductive Tile : Nat → List Claim → Nat → Prop where
  | nil (a : Nat) : Tile a [] a
  | cons {a b : Nat} {c : Claim} {cs : List Claim} (start : c.start.toNat = a)
      (nonempty : a < c.stop.toNat) (rest : Tile c.stop.toNat cs b) : Tile a (c :: cs) b

namespace Tile

variable {a b : Nat} {c : Claim} {cs : List Claim}

theorem le (h : Tile a cs b) : a ≤ b := by
  induction h with
  | nil => exact Nat.le_refl _
  | cons _ hlt _ ih => omega

theorem bounds (h : Tile a cs b) (hc : c ∈ cs) :
    a ≤ c.start.toNat ∧ c.start.toNat < c.stop.toNat ∧ c.stop.toNat ≤ b := by
  induction h with
  | nil => cases hc
  | cons hs hlt t ih =>
      rcases List.mem_cons.mp hc with rfl | hc
      · exact ⟨by omega, by omega, t.le⟩
      · obtain ⟨h₁, h₂, h₃⟩ := ih hc
        exact ⟨by omega, h₂, h₃⟩

theorem snoc (h : Tile a cs b) (hs : c.start.toNat = b) (hlt : b < c.stop.toNat) :
    Tile a (cs ++ [c]) c.stop.toNat := by
  induction h with
  | nil => exact .cons hs hlt (.nil _)
  | cons hs' hlt' _ ih => exact .cons hs' hlt' (ih hs hlt)

theorem append {ds : List Claim} {d : Nat} (h : Tile a cs b) (h' : Tile b ds d) :
    Tile a (cs ++ ds) d := by
  induction h with
  | nil => exact h'
  | cons hs hlt _ ih => exact .cons hs hlt (ih h')

/-- The claim that starts at the near end is the first. -/
theorem eq_cons_of_mem (h : Tile a cs b) (hc : c ∈ cs) (hs : c.start.toNat = a) :
    ∃ cs', cs = c :: cs' ∧ a < c.stop.toNat ∧ Tile c.stop.toNat cs' b := by
  cases h with
  | nil => cases hc
  | @cons _ _ d ds hs' hlt t =>
      rcases List.mem_cons.mp hc with rfl | hc
      · exact ⟨ds, rfl, hlt, t⟩
      · have hd := (t.bounds hc).1
        omega

theorem ordered (h : Tile a cs b) : cs.Pairwise fun c d => c.stop.toNat ≤ d.start.toNat := by
  induction h with
  | nil => exact .nil
  | cons _ _ t ih => exact .cons (fun d hd => (t.bounds hd).1) ih

theorem apart (h : Tile a cs b) : cs.Pairwise Claim.Apart :=
  h.ordered.imp fun hle => Claim.apart_of_le hle

theorem covers_iff (h : Tile a cs b) (p : Nat) :
    (∃ c ∈ cs, c.Covers p) ↔ a ≤ p ∧ p < b := by
  constructor
  · rintro ⟨c, hc, hp₁, hp₂⟩
    obtain ⟨h₁, -, h₃⟩ := h.bounds hc
    omega
  · intro hp
    induction h with
    | nil => omega
    | @cons _ _ c cs hs hlt _ ih =>
        by_cases hin : p < c.stop.toNat
        · exact ⟨c, List.mem_cons_self, ⟨by omega, hin⟩⟩
        · obtain ⟨d, hd, hcov⟩ := ih ⟨by omega, hp.2⟩
          exact ⟨d, List.mem_cons_of_mem _ hd, hcov⟩

/-- A tiling ends where its last claim stops. -/
theorem eq_getLast?_stop (h : Tile a cs b) : b = (cs.getLast?.map (·.stop.toNat)).getD a := by
  induction h with
  | nil => rfl
  | @cons a b c cs _ _ _ ih =>
      rw [ih, List.getLast?_cons, Option.map_some, Option.getD_some]
      exact Option.getD_map (·.stop.toNat) c cs.getLast?

theorem sum_len (h : Tile a cs b) : a + (cs.map fun c => c.len.toNat).sum = b := by
  induction h with
  | nil => rfl
  | cons hs hlt _ ih =>
      rw [List.map_cons, List.sum_cons, Claim.toNat_len (by omega)]
      omega

end Tile

end BurstRing
