/-!
# JSON values

A JSON text as a tree.  Members of an object keep their order and may repeat, since it is for the
reader of the tree to refuse that.  A string is a sequence of code points, surrogates included: an
escape may spell half of a pair alone, which is fine as long as nobody needs the text.  A number
without sign, point and exponent is a natural number, and any other is kept as it is written.
-/

namespace BurstRing

/-- A code point, which may be a surrogate. -/
abbrev CodePoint := UInt32

/-- A number as it is written. -/
inductive JsonNumber where
  | natural (n : Nat)
  | written (text : String)
  deriving DecidableEq, Repr

inductive Json where
  | null
  | bool (b : Bool)
  | number (n : JsonNumber)
  | string (s : List CodePoint)
  | array (items : List Json)
  | object (members : List (List CodePoint × Json))
  deriving Repr

namespace Json

/-- The code points of a text. -/
def codePoints (s : String) : List CodePoint := s.toList.map (·.val)

/-- The character of a code point that is no surrogate. -/
def char? (u : CodePoint) : Option Char :=
  if h : u.isValidChar then some ⟨u, h⟩ else none

/-- The text of code points none of which is a surrogate. -/
def text? (s : List CodePoint) : Option String := (s.mapM char?).map String.ofList

def ofString (s : String) : Json := .string (codePoints s)

def ofNat (n : Nat) : Json := .number (.natural n)

def ofMembers (members : List (String × Json)) : Json :=
  .object (members.map fun m => (codePoints m.1, m.2))

theorem char?_val (c : Char) : char? c.val = some c := by
  simp [char?, c.valid]

/-- A text is read back from its code points. -/
theorem text?_codePoints (s : String) : text? (codePoints s) = some s := by
  have mapM_eq : ∀ cs : List Char, (cs.map (·.val)).mapM char? = some cs := by
    intro cs
    induction cs with
    | nil => rfl
    | cons c cs ih => simp [char?_val, ih]
  simp [text?, codePoints, mapM_eq]

end Json

end BurstRing
