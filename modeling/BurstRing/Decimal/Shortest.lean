import BurstRing.Decimal.Binary64

/-!
# Shortest decimal text

The decimal with the fewest digits that rounds back to a given floating-point number, and of those
the nearest.  The numbers that round to `m * 2 ^ e` lie between the two middles to its neighbours,
ends included if `m` is even; so one grid of decimals after the other is searched, coarse ones
first, for a point in that interval.  Only the two grid points around the number need a look.

Numbers are written out in positions, whatever their size.
-/

namespace BurstRing.Decimal

/-- The decimal `digits * 10 ^ exponent`. -/
structure Scientific where
  digits : Nat
  exponent : Int
  deriving DecidableEq, Repr

/-- A quarter of the last place of `m * 2 ^ e` as the unit: the interval that rounds to it. -/
def roundingInterval (m : Nat) (e : Int) : Nat × Nat :=
  let lowest := if m = Nat.pow 2 (mantissaBits - 1) ∧ minExponent < e then 4 * m - 1 else 4 * m - 2
  (lowest, 4 * m + 2)

/-- The point of the grid `10 ^ k` that rounds to `m * 2 ^ e`, if there is one; of two the
nearer. -/
def gridPoint? (m : Nat) (e k : Int) : Option Nat :=
  -- `d * 10 ^ k` against `x * 2 ^ (e - 2)`, both scaled to integers
  let decimal := Nat.pow 10 k.toNat * Nat.pow 2 (2 - e).toNat
  let binary := Nat.pow 2 (e - 2).toNat * Nat.pow 10 (-k).toNat
  let (lowest, highest) := roundingInterval m e
  let closed := m % 2 == 0
  let fits (d : Nat) : Bool :=
    d != 0 && (if closed then
        lowest * binary ≤ d * decimal && d * decimal ≤ highest * binary
      else lowest * binary < d * decimal && d * decimal < highest * binary)
  let target := 4 * m * binary
  let below := target / decimal
  let distanceBelow := target - below * decimal
  let distanceAbove := (below + 1) * decimal - target
  match fits below, fits (below + 1) with
  | true, true =>
    if distanceBelow < distanceAbove then some below
    else if distanceAbove < distanceBelow then some (below + 1)
    else some (if below % 2 = 0 then below else below + 1)
  | true, false => some below
  | false, true => some (below + 1)
  | false, false => none

/-- The first hit on the grids `10 ^ k`, `10 ^ (k - 1)` and so on. -/
def searchGrids (m : Nat) (e : Int) : (fuel : Nat) → (k : Int) → Option Scientific
  | 0, _ => none
  | fuel + 1, k =>
    match gridPoint? m e k with
    | some d => some ⟨d, k⟩
    | none => searchGrids m e fuel (k - 1)

/-- The shortest decimal that rounds to `m * 2 ^ e`, which is not zero. -/
def shortest (m : Nat) (e : Int) : Scientific := (searchGrids m e 700 310).getD ⟨0, 0⟩

/-- A decimal written out in positions, with a point and at least one digit on each side of it. -/
def Scientific.positional (s : Scientific) : String :=
  let digits := Nat.toDigits 10 s.digits
  if 0 ≤ s.exponent then
    String.ofList (digits ++ List.replicate s.exponent.toNat '0' ++ ['.', '0'])
  else
    let places := (-s.exponent).toNat
    let padded := List.replicate (places + 1 - digits.length) '0' ++ digits
    let whole := padded.length - places
    String.ofList (padded.take whole ++ ['.'] ++ padded.drop whole)

/-- A floating-point number in words. -/
def Floating.text : Floating → String
  | .infinity negative => if negative then "-inf" else "inf"
  | .notANumber => "NaN"
  | .finite negative m e =>
    (if negative then "-" else "") ++ (if m = 0 then "0.0" else (shortest m e).positional)

end BurstRing.Decimal
