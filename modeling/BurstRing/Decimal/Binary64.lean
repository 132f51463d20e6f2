/-!
# Binary floating-point numbers

The numbers of 64-bit binary floating point, as a mantissa below `2 ^ 53` times a power of two, and
how a decimal numeral is rounded to the nearest of them.  All arithmetic is exact; of two numbers
equally near the one with the even mantissa is taken.
-/

namespace BurstRing.Decimal

/-- A floating-point number; a finite one is `mantissa * 2 ^ exponent`. -/
inductive Floating where
  | finite (negative : Bool) (mantissa : Nat) (exponent : Int)
  | infinity (negative : Bool)
  | notANumber
  deriving DecidableEq, Repr

/-- Bits of a mantissa. -/
def mantissaBits : Nat := 53

/-- Exponent of the smallest numbers. -/
def minExponent : Int := -1074

/-- Exponent of the largest numbers. -/
def maxExponent : Int := 971

/-- The integer nearest to `num / den`; a half goes to the even neighbour. -/
def roundDiv (num den : Nat) : Nat :=
  let d := num / den
  let r := num % den
  if 2 * r < den then d
  else if den < 2 * r then d + 1
  else if d % 2 = 0 then d
  else d + 1

/-- The largest `k` such that `2 ^ k` is at most `num / den`, both being positive. -/
def floorLog2 (num den : Nat) : Int :=
  let k : Int := (num.log2 : Int) - den.log2
  if num * Nat.pow 2 (-k).toNat < den * Nat.pow 2 k.toNat then k - 1 else k

/-- The number nearest to `num / den`, both being positive; none if that is beyond the largest. -/
def nearest? (num den : Nat) : Option (Nat × Int) :=
  let e := max (floorLog2 num den - (mantissaBits - 1 : Nat)) minExponent
  let m := roundDiv (num * Nat.pow 2 (-e).toNat) (den * Nat.pow 2 e.toNat)
  let (m, e) :=
    if m = Nat.pow 2 mantissaBits then (Nat.pow 2 (mantissaBits - 1), e + 1) else (m, e)
  if maxExponent < e then none else some (m, e)

/-- The number nearest to `digits * 10 ^ exponent`; none if that is beyond the largest.  A number
far too large or too small is told by its digits. -/
def ofScientific? (negative : Bool) (digits : Nat) (exponent : Int) : Option Floating :=
  let magnitude : Int := (Nat.toDigits 10 digits).length + exponent
  if digits = 0 ∨ magnitude < -330 then some (.finite negative 0 minExponent)
  else if 310 < magnitude then none
  else
    (nearest? (digits * Nat.pow 10 exponent.toNat) (Nat.pow 10 (-exponent).toNat)).map fun (m, e) =>
      .finite negative m e

/-! ### Reading -/

/-- An exponent after its letter: a sign perhaps, and digits. -/
def readExponent? (cs : List Char) : Option Int :=
  let (negative, ds) := match cs with
    | '-' :: ds => (true, ds)
    | '+' :: ds => (false, ds)
    | ds => (false, ds)
  if ds.isEmpty || !ds.all Char.isDigit then none
  else
    let n : Int := Nat.ofDigitChars 10 ds 0
    some (if negative then -n else n)

/-- A numeral without sign: digits with a point among or around them, and perhaps an exponent. -/
def readMagnitude? (cs : List Char) : Option (Nat × Int) := do
  let whole := cs.takeWhile Char.isDigit
  let (fraction, rest) := match cs.dropWhile Char.isDigit with
    | '.' :: rest => (rest.takeWhile Char.isDigit, rest.dropWhile Char.isDigit)
    | rest => ([], rest)
  let exponent ← match rest with
    | [] => some 0
    | 'e' :: rest | 'E' :: rest => readExponent? rest
    | _ => none
  let digits := whole ++ fraction
  if digits.isEmpty then none
  else some (Nat.ofDigitChars 10 digits 0, exponent - fraction.length)

/-- A decimal numeral as the nearest number; none if it is no numeral or beyond the largest. -/
def readFinite? (cs : List Char) : Option Floating :=
  let (negative, cs) := match cs with
    | '-' :: cs => (true, cs)
    | '+' :: cs => (false, cs)
    | cs => (false, cs)
  (readMagnitude? cs).bind fun (digits, exponent) => ofScientific? negative digits exponent

end BurstRing.Decimal
