/-!
# Blank characters, trimming and cutting

The white space of the character database, trimming it off both ends of a text, and cutting a
text at a separator.  Everything works on lists of characters; `trimmed` is the form on strings.
-/

namespace BurstRing.Text

/-- White space: the ASCII blanks and line ends, and the spaces and separators beyond. -/
def isBlank (c : Char) : Bool :=
  let n := c.toNat
  (0x09 ≤ n && n ≤ 0x0D) || n == 0x20 || n == 0x85 || n == 0xA0 || n == 0x1680
    || (0x2000 ≤ n && n ≤ 0x200A) || n == 0x2028 || n == 0x2029 || n == 0x202F
    || n == 0x205F || n == 0x3000

/-- Drops the blanks at the end. -/
def trimEnd (cs : List Char) : List Char := (cs.reverse.dropWhile isBlank).reverse

/-- Drops the blanks at both ends. -/
def trim (cs : List Char) : List Char := trimEnd (cs.dropWhile isBlank)

/-- The text without the blanks at its ends. -/
def trimmed (s : String) : String := String.ofList (trim s.toList)

/-- What stands before the first `sep`, and what stands after it if there is one. -/
def cutFirst (sep : Char) : List Char → List Char × Option (List Char)
  | [] => ([], none)
  | c :: cs =>
    if c = sep then ([], some cs)
    else
      let (before, after) := cutFirst sep cs
      (c :: before, after)

/-- The pieces between the `sep`s: one more than there are separators. -/
def cutAll (sep : Char) : List Char → List (List Char)
  | [] => [[]]
  | c :: cs =>
    if c = sep then [] :: cutAll sep cs
    else
      match cutAll sep cs with
      | [] => [[c]]
      | piece :: rest => (c :: piece) :: rest

/-- Cutting at a separator between two texts gives the pieces of both. -/
theorem cutAll_append_sep (sep : Char) (a b : List Char) :
    cutAll sep (a ++ sep :: b) = cutAll sep a ++ cutAll sep b := by
  induction a with
  | nil => simp [cutAll]
  | cons c cs ih =>
      have hne : ∀ l, cutAll sep l ≠ [] := by
        intro l
        cases l with
        | nil => simp [cutAll]
        | cons d ds =>
            simp only [cutAll]
            split
            · simp
            · split <;> simp
      simp only [List.cons_append, cutAll, ih]
      by_cases h : c = sep
      · simp [h]
      · simp only [h, if_false]
        cases hc : cutAll sep cs with
        | nil => exact absurd hc (hne cs)
        | cons p r => simp

end BurstRing.Text
