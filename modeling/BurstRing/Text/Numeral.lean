/-!
# Decimal numerals

Reading an unsigned number below a bound: ASCII digits after an optional plus sign.  A text is
read from the left, so a number that outgrows the bound is refused as too large before a later
character is looked at.
-/

namespace BurstRing.Text

/-- Why a text is not a numeral. -/
inductive NumeralError where
  | empty
  | invalidDigit
  | tooLarge
  deriving DecidableEq, Repr

/-- Wording of a refused numeral. -/
def NumeralError.message : NumeralError → String
  | .empty => "cannot parse integer from empty string"
  | .invalidDigit => "invalid digit found in string"
  | .tooLarge => "number too large to fit in target type"

/-- Value of `c` as a digit below `radix`; letters count from ten on. -/
def digitValue? (radix : Nat) (c : Char) : Option Nat :=
  let n := c.toNat
  let v :=
    if 0x30 ≤ n ∧ n ≤ 0x39 then some (n - 0x30)
    else if 0x61 ≤ n ∧ n ≤ 0x7A then some (n - 0x61 + 10)
    else if 0x41 ≤ n ∧ n ≤ 0x5A then some (n - 0x41 + 10)
    else none
  v.filter (· < radix)

/-- Goes on reading digits after `acc`, while the number stays below `bound`. -/
def readDigits (radix bound : Nat) : (acc : Nat) → List Char → Except NumeralError Nat
  | acc, [] => .ok acc
  | acc, c :: cs =>
    match digitValue? radix c with
    | none => .error .invalidDigit
    | some d =>
      if acc * radix + d < bound then readDigits radix bound (acc * radix + d) cs
      else .error .tooLarge

/-- A number below `bound`, with an optional plus sign. -/
def readUnsigned (radix bound : Nat) : List Char → Except NumeralError Nat
  | [] => .error .empty
  | ['+'] => .error .invalidDigit
  | '+' :: cs => readDigits radix bound 0 cs
  | cs => readDigits radix bound 0 cs

/-- A decimal number that fits a 64-bit word. -/
def readWord (cs : List Char) : Except NumeralError UInt64 :=
  (readUnsigned 10 UInt64.size cs).map (·.toUInt64)

end BurstRing.Text
