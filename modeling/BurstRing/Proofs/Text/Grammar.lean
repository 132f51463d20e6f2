import BurstRing.Text.Blank
import BurstRing.Text.Numeral
import Mathlib.Algebra.Ring.Nat
import Mathlib.Data.List.TakeWhile
import Mathlib.Tactic.Common

/-!
# Texts without their blanks, cut at a separator, and read as numbers

What trimming, cutting and reading numerals come to, said of the texts alone: `TrimsTo` for what is
left between blanks, `IsNumeral` for the ways to write a number below a bound.  The functions find
exactly that (`trim_eq_iff`, `readUnsigned_eq_ok_iff`), and cutting undoes joining
(`cutFirst_append`, `cutAll_intercalate`).
-/

namespace BurstRing.Text

variable {cs text before after : List Char} {sep : Char}

/-! ### Blanks -/

/-- Blanks and nothing else. -/
def AllBlank (cs : List Char) : Prop := ∀ c ∈ cs, isBlank c = true

/-- `text` stands in `cs` with blanks around it, and neither begins nor ends with one itself. -/
structure TrimsTo (cs text : List Char) : Prop where
  around : ∃ before after, cs = before ++ text ++ after ∧ AllBlank before ∧ AllBlank after
  head_not_blank : ∀ c ∈ text.head?, isBlank c = false
  last_not_blank : ∀ c ∈ text.getLast?, isBlank c = false

theorem allBlank_nil : AllBlank [] := nofun

theorem AllBlank.reverse (h : AllBlank cs) : AllBlank cs.reverse :=
  fun c hc => h c (List.mem_reverse.mp hc)

theorem allBlank_takeWhile (cs : List Char) : AllBlank (cs.takeWhile isBlank) :=
  fun _ hc => List.mem_takeWhile_imp hc

theorem isBlank_head_dropWhile (cs : List Char) :
    ∀ c ∈ (cs.dropWhile isBlank).head?, isBlank c = false := by
  intro c hc
  have hnot := List.head?_dropWhile_not isBlank cs
  rw [Option.mem_def] at hc
  rwa [hc] at hnot

/-- Blanks in front are dropped, up to the first character that is none. -/
theorem dropWhile_blanks (hbefore : AllBlank before)
    (hhead : ∀ c ∈ text.head?, isBlank c = false) :
    (before ++ text).dropWhile isBlank = text := by
  rw [List.dropWhile_append_of_pos hbefore]
  cases text with
  | nil => rfl
  | cons c text => rw [List.dropWhile_cons_of_neg (Bool.eq_false_iff.mp (hhead c rfl))]

theorem TrimsTo.trim_eq (h : TrimsTo cs text) : trim cs = text := by
  obtain ⟨⟨before, after, rfl, hbefore, hafter⟩, hhead, hlast⟩ := h
  rw [trim, trimEnd, List.append_assoc]
  cases text with
  | nil =>
      -- All is blank, so nothing is left from the front.
      have hall : (before ++ ([] ++ after)).dropWhile isBlank = [] :=
        List.dropWhile_eq_nil_iff.mpr fun c hc =>
          (List.mem_append.mp hc).elim (hbefore c) (hafter c)
      rw [hall]
      rfl
  | cons c text =>
      have hfront : (before ++ (c :: text ++ after)).dropWhile isBlank = c :: text ++ after :=
        dropWhile_blanks hbefore hhead
      rw [hfront, List.reverse_append, dropWhile_blanks hafter.reverse, List.reverse_reverse]
      rwa [List.head?_reverse]

theorem trimsTo_trim (cs : List Char) : TrimsTo cs (trim cs) := by
  have hsplit : cs.dropWhile isBlank =
      trim cs ++ ((cs.dropWhile isBlank).reverse.takeWhile isBlank).reverse := by
    rw [trim, trimEnd, ← List.reverse_append, List.takeWhile_append_dropWhile,
      List.reverse_reverse]
  exact {
    around := by
      refine ⟨_, _, ?_, allBlank_takeWhile cs,
        (allBlank_takeWhile (cs.dropWhile isBlank).reverse).reverse⟩
      rw [List.append_assoc, ← hsplit, List.takeWhile_append_dropWhile]
    head_not_blank := by
      intro c hc
      refine isBlank_head_dropWhile cs c ?_
      rw [hsplit, Option.mem_def, List.head?_append, Option.mem_def.mp hc, Option.some_or]
    last_not_blank := by
      rw [trim, trimEnd, List.getLast?_reverse]
      exact isBlank_head_dropWhile _ }

/-- Trimming leaves what stands between the blanks. -/
theorem trim_eq_iff : trim cs = text ↔ TrimsTo cs text :=
  ⟨fun h => h ▸ trimsTo_trim cs, TrimsTo.trim_eq⟩

theorem cutFirst_of_not_mem (h : sep ∉ cs) : cutFirst sep cs = (cs, none) := by
  induction cs with
  | nil => rfl
  | cons c cs ih =>
      rw [List.mem_cons, not_or] at h
      rw [cutFirst, if_neg (Ne.symm h.1), ih h.2]

theorem cutFirst_append (h : sep ∉ before) :
    cutFirst sep (before ++ sep :: after) = (before, some after) := by
  induction before with
  | nil => rw [List.nil_append, cutFirst, if_pos rfl]
  | cons c before ih =>
      rw [List.mem_cons, not_or] at h
      rw [List.cons_append, cutFirst, if_neg (Ne.symm h.1), ih h.2]

theorem cutAll_eq_splitOn (sep : Char) (cs : List Char) : cutAll sep cs = cs.splitOn sep := by
  induction cs with
  | nil => rfl
  | cons c cs ih =>
      rw [List.splitOn_cons_eq_if_modifyHead, cutAll, ih]
      by_cases hc : c = sep
      · simp [hc]
      · obtain ⟨piece, rest, hpieces⟩ := List.exists_cons_of_ne_nil (List.splitOn_ne_nil sep cs)
        simp [hc, hpieces]

/-- Cutting gives back the pieces that were joined. -/
theorem cutAll_intercalate {pieces : List (List Char)} (hne : pieces ≠ [])
    (h : ∀ piece ∈ pieces, sep ∉ piece) :
    cutAll sep ([sep].intercalate pieces) = pieces := by
  rw [cutAll_eq_splitOn, List.splitOn_intercalate sep h hne]

theorem intercalate_cutAll (sep : Char) (cs : List Char) :
    [sep].intercalate (cutAll sep cs) = cs := by
  rw [cutAll_eq_splitOn, List.intercalate_splitOn]

theorem not_mem_of_mem_cutAll {piece : List Char} (h : piece ∈ cutAll sep cs) : sep ∉ piece := by
  induction cs generalizing piece with
  | nil =>
      cases List.mem_singleton.mp h
      nofun
  | cons c cs ih =>
      obtain ⟨first, rest, hpieces⟩ : ∃ first rest, cutAll sep cs = first :: rest := by
        rw [cutAll_eq_splitOn]
        exact List.exists_cons_of_ne_nil (List.splitOn_ne_nil sep cs)
      rw [cutAll, hpieces] at h
      rw [hpieces] at ih
      split at h
      · rcases List.mem_cons.mp h with rfl | h
        · nofun
        · exact ih h
      · rename_i hc
        rcases List.mem_cons.mp h with rfl | h
        · rw [List.mem_cons, not_or]
          exact ⟨Ne.symm hc, ih List.mem_cons_self⟩
        · exact ih (List.mem_cons_of_mem _ h)

/-! ### Numerals -/

/-- A way to write `n`, which is below `bound`: decimal digits, perhaps with a plus sign in front of
them. -/
def IsNumeral (bound : Nat) (cs : List Char) (n : Nat) : Prop :=
  ∃ digits : List Char, (cs = digits ∨ cs = '+' :: digits) ∧ digits ≠ [] ∧
    (∀ d ∈ digits, d.isDigit = true) ∧ Nat.ofDigitChars 10 digits 0 = n ∧ n < bound

namespace IsNumeral

variable {bound bound' m n : Nat}

theorem chars (h : IsNumeral bound cs n) : ∀ c ∈ cs, c.isDigit = true ∨ c = '+' := by
  obtain ⟨digits, rfl | rfl, -, hdigits, -⟩ := h
  · exact fun c hc => .inl (hdigits c hc)
  · intro c hc
    rcases List.mem_cons.mp hc with rfl | hc
    · exact .inr rfl
    · exact .inl (hdigits c hc)

theorem ne_nil (h : IsNumeral bound cs n) : cs ≠ [] := by
  obtain ⟨digits, rfl | rfl, hne, -⟩ := h
  · exact hne
  · nofun

/-- A text is a way to write one number at most. -/
theorem unique (h : IsNumeral bound cs n) (h' : IsNumeral bound' cs m) : n = m := by
  obtain ⟨digits, hcs, -, hdigits, rfl, -⟩ := h
  obtain ⟨digits', hcs', -, hdigits', rfl, -⟩ := h'
  have hplus : ∀ {ds : List Char}, (∀ d ∈ ds, d.isDigit = true) → ∀ ds', ds ≠ '+' :: ds' := by
    rintro _ hall ds' rfl
    exact absurd (hall '+' List.mem_cons_self) (by decide)
  rcases hcs with rfl | rfl <;> rcases hcs' with heq | heq
  · rw [heq]
  · exact absurd heq (hplus hdigits _)
  · exact absurd heq.symm (hplus hdigits' _)
  · rw [(List.cons.inj heq).2]

end IsNumeral

theorem isDigit_iff {c : Char} : c.isDigit = true ↔ 0x30 ≤ c.toNat ∧ c.toNat ≤ 0x39 := by
  simp [Char.isDigit, UInt32.le_iff_toNat_le]

theorem digitValue?_of_isDigit {c : Char} (h : c.isDigit = true) :
    digitValue? 10 c = some (c.toNat - '0'.toNat) := by
  rw [isDigit_iff] at h
  have hlt : c.toNat - 0x30 < 10 := by omega
  simp [digitValue?, h, hlt]

theorem digitValue?_of_not_isDigit {c : Char} (h : c.isDigit = false) :
    digitValue? 10 c = none := by
  have hdigit : ¬ (0x30 ≤ c.toNat ∧ c.toNat ≤ 0x39) := by
    rw [← isDigit_iff, h]
    nofun
  rw [digitValue?, Option.filter_eq_none_iff]
  intro v hv
  rw [if_neg hdigit] at hv
  split at hv
  · cases hv
    simp
  · split at hv
    · cases hv
      simp
    · cases hv

theorem le_ofDigitChars (digits : List Char) : ∀ acc, acc ≤ Nat.ofDigitChars 10 digits acc := by
  induction digits with
  | nil => exact fun acc => Nat.le_refl acc
  | cons d digits ih =>
      intro acc
      rw [Nat.ofDigitChars_cons]
      exact Nat.le_trans (by omega) (ih _)

/-- Reading goes on through digits alone, and a number that outgrows the bound never comes back. -/
theorem readDigits_eq_ok_iff {bound n : Nat} {digits : List Char} :
    ∀ {acc}, acc < bound → (readDigits 10 bound acc digits = .ok n ↔
      (∀ d ∈ digits, d.isDigit = true) ∧ Nat.ofDigitChars 10 digits acc = n ∧ n < bound) := by
  induction digits with
  | nil =>
      intro acc hacc
      simp only [readDigits, Except.ok.injEq, List.not_mem_nil, false_implies, implies_true,
        true_and, Nat.ofDigitChars_nil]
      exact ⟨fun h => ⟨h, h ▸ hacc⟩, And.left⟩
  | cons d digits ih =>
      intro acc hacc
      rw [readDigits, Nat.ofDigitChars_cons, List.forall_mem_cons]
      cases hd : d.isDigit with
      | false => simp [digitValue?_of_not_isDigit hd]
      | true =>
          simp only [digitValue?_of_isDigit hd, true_and, Nat.mul_comm acc 10]
          by_cases hnext : 10 * acc + (d.toNat - '0'.toNat) < bound
          · rw [if_pos hnext, ih hnext]
          · rw [if_neg hnext]
            refine iff_of_false (by simp) ?_
            rintro ⟨-, rfl, hn⟩
            exact hnext (Nat.lt_of_le_of_lt (le_ofDigitChars ..) hn)

/-- What is read is what is written, and everything that is written so is read. -/
theorem readUnsigned_eq_ok_iff {bound n : Nat} (hbound : 0 < bound) :
    readUnsigned 10 bound cs = .ok n ↔ IsNumeral bound cs n := by
  constructor
  · intro h
    rw [readUnsigned.eq_def] at h
    split at h
    · cases h
    · cases h
    · rename_i digits hne
      exact ⟨digits, .inr rfl, fun hnil => hne (hnil ▸ rfl), (readDigits_eq_ok_iff hbound).mp h⟩
    · rename_i hne _ _
      exact ⟨cs, .inl rfl, fun hnil => hne hnil, (readDigits_eq_ok_iff hbound).mp h⟩
  · rintro ⟨digits, hcs, hne, hdigits⟩
    have hread := (readDigits_eq_ok_iff hbound).mpr hdigits
    obtain ⟨d, digits, rfl⟩ := List.exists_cons_of_ne_nil hne
    rcases hcs with rfl | rfl
    · have hd : d ≠ '+' := by
        rintro rfl
        exact absurd (hdigits.1 '+' List.mem_cons_self) (by decide)
      rw [readUnsigned.eq_def]
      split
      · rename_i heq; cases heq
      · rename_i heq; cases heq; exact absurd rfl hd
      · rename_i heq; cases heq; exact absurd rfl hd
      · exact hread
    · rw [readUnsigned.eq_def]
      exact hread

end BurstRing.Text
