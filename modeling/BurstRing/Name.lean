import BurstRing.Error

/-!
# Ring names

A ring name has 1 to 32 bytes, each an ASCII letter or digit, a hyphen or an underscore.  The type
carries that promise, so every name that exists has been checked.
-/

namespace BurstRing

/-- Most bytes a ring name may have. -/
def maxNameBytes : Nat := 32

/-- A character that may stand in a ring name. -/
def isNameChar (c : Char) : Bool :=
  c.isAlphanum || c == '-' || c == '_'

/-- Being a ring name. -/
def IsRingName (s : String) : Prop :=
  s ≠ "" ∧ s.utf8ByteSize ≤ maxNameBytes ∧ s.toList.all isNameChar = true

instance (s : String) : Decidable (IsRingName s) := by unfold IsRingName; infer_instance

/-- A checked ring name. -/
structure RingName where
  text : String
  isRingName : IsRingName text
  deriving DecidableEq

namespace RingName

theorem eq_of_text {a b : RingName} (h : a.text = b.text) : a = b := by
  cases a
  cases b
  cases h
  rfl

/-- The first rule that `s` breaks, if it breaks one. -/
def refusal? (s : String) : Option String :=
  if s = "" then some "Ring name cannot be empty"
  else if maxNameBytes < s.utf8ByteSize then
    some s!"Ring name too long: {s.utf8ByteSize} chars (max {maxNameBytes})"
  else if s.toList.all isNameChar then none
  else some ("Ring name must contain only ASCII alphanumeric characters, hyphens, "
    ++ "and underscores")

/-- A rule is broken exactly by what is no name. -/
theorem refusal?_eq_none_iff {s : String} : refusal? s = none ↔ IsRingName s := by
  unfold refusal? IsRingName
  by_cases h₁ : s = ""
  · simp [h₁]
  · by_cases h₂ : maxNameBytes < s.utf8ByteSize
    · have h₄ : ¬ s.utf8ByteSize ≤ maxNameBytes := by omega
      simp [h₁, h₂, h₄]
    · by_cases h₃ : s.toList.all isNameChar = true
      · simp only [h₁, h₂, h₃, if_true, if_false, ne_eq, not_false_eq_true, true_and,
          and_true, true_iff]
        omega
      · simp [h₁, h₂, h₃]

/-- Checks `s`: length first, then its characters. -/
def ofString (s : String) : Except SettingError RingName :=
  match h : refusal? s with
  | none => .ok ⟨s, refusal?_eq_none_iff.1 h⟩
  | some reason => .error (.invalidValue "ring_name" s reason)

/-- A checked name is accepted again, unchanged. -/
theorem ofString_text (n : RingName) : ofString n.text = .ok n := by
  unfold ofString
  split
  · rfl
  · rename_i reason h
    have := refusal?_eq_none_iff.2 n.isRingName
    simp [this] at h

theorem text_of_ofString {s : String} {n : RingName} (h : ofString s = .ok n) : n.text = s := by
  unfold ofString at h
  split at h
  · simp only [Except.ok.injEq] at h
    exact h ▸ rfl
  · simp at h

/-- The name in quotes, as diagnostics show it. -/
def debug (n : RingName) : String := Text.applied "RingName" (Text.quoted n.text)

end RingName

end BurstRing
