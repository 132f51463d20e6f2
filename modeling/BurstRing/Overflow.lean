/-!
# Overflow and other panics

A difference of two words may lie below zero, and a sum beyond `2 ^ 64`.  Cursors are meant to run
over, and their arithmetic says so.  Everywhere else it is up to the build of the program what
happens: a build that checks its arithmetic panics there, and any other goes on with the result
modulo `2 ^ 64`.
-/

namespace BurstRing

/-- Why the program breaks off. -/
inductive Panic where
  /-- A side for one caller at a time was claimed on by two. -/
  | concurrentClaim
  /-- A side for one caller at a time was published on by two. -/
  | concurrentPublication
  | subtraction
  | addition
  /-- More bytes for one vector than there can be. -/
  | capacity
  deriving DecidableEq, Repr

def Panic.message : Panic → String
  | .concurrentClaim => "concurrent claim on a single-threaded ring side"
  | .concurrentPublication => "concurrent publish on a single-threaded ring side"
  | .subtraction => "attempt to subtract with overflow"
  | .addition => "attempt to add with overflow"
  | .capacity => "capacity overflow"

/-- What a build does about arithmetic that runs over. -/
inductive Overflow where
  /-- It panics. -/
  | checked
  /-- It goes on modulo `2 ^ 64`. -/
  | wrapping
  deriving DecidableEq, Repr

namespace Overflow

/-- The difference of two words. -/
def sub : Overflow → UInt64 → UInt64 → Except Panic UInt64
  | .checked, a, b => if a < b then .error .subtraction else .ok (a - b)
  | .wrapping, a, b => .ok (a - b)

/-- The sum of two words. -/
def add : Overflow → UInt64 → UInt64 → Except Panic UInt64
  | .checked, a, b =>
    if a.toNat + b.toNat < UInt64.size then .ok (a + b) else .error .addition
  | .wrapping, a, b => .ok (a + b)

end Overflow

end BurstRing
