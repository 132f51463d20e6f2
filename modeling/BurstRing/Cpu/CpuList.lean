import BurstRing.Overflow
import BurstRing.Text.Blank
import BurstRing.Text.Numeral

/-!
# CPU lists

A CPU list names CPUs by single numbers and by ranges, with commas between: `0-3,8-11`.  An item
that is neither contributes nothing and leaves its neighbours alone.

The numbers are put one after another into a vector.  How many an item gives is known before they
are put there: the vector gets the room first, and an item that is more than a vector can have room
for ends the program.
-/

namespace BurstRing.CpuList

open Text

/-- Successive numbers, as an item gives them. -/
structure Span where
  first : UInt64
  count : Nat
  deriving DecidableEq, Repr

/-- The numbers one by one. -/
def Span.cpus (span : Span) : List UInt64 :=
  (List.range span.count).map fun i => span.first + i.toUInt64

/-- No numbers at all. -/
def Span.none : Span := ⟨0, 0⟩

/-- What one item gives, without the blanks around it. -/
def readItem (item : List Char) : Span :=
  match cutFirst '-' item with
  | (lo, some hi) =>
    match readWord lo, readWord hi with
    | .ok lo, .ok hi => ⟨lo, hi.toNat + 1 - lo.toNat⟩
    | _, _ => .none
  | (cpu, none) =>
    match readWord cpu with
    | .ok n => ⟨n, 1⟩
    | .error _ => .none

/-- What the items of a list give, in order. -/
def spans (text : List Char) : List Span := (cutAll ',' text).map fun item => readItem (trim item)

/-- Why a list was not read to its end. -/
inductive Fault where
  | panicked (panic : Panic)
  | outOfMemory
  deriving DecidableEq, Repr

/-- Most numbers of a vector: as many as have less than `2 ^ 63` bytes. -/
def maxEntries : Nat := 1152921504606846975

/-- Room of a vector that is to hold `n` numbers and has room for `capacity`: if that is too little,
it is at least doubled. -/
def grown (capacity n : Nat) : Nat :=
  if n ≤ capacity then capacity else max 4 (max (2 * capacity) n)

/-- Numbers in a vector with room for `capacity`. -/
structure Filled where
  cpus : List UInt64
  capacity : Nat

/-- Puts the numbers of a span behind those that there are, if a vector can have the room for them
and memory gives it. -/
def Filled.extend (room : Nat) (filled : Filled) (span : Span) : Except Fault Filled :=
  let capacity := grown filled.capacity (filled.cpus.length + span.count)
  if maxEntries < capacity then .error (.panicked .capacity)
  else if room < capacity then .error .outOfMemory
  else .ok ⟨filled.cpus ++ span.cpus, capacity⟩

/-- The CPUs that a list names, in order.  Memory gives a vector room for `room` numbers and no
more. -/
def read (room : Nat) (text : List Char) : Except Fault (List UInt64) :=
  ((spans text).foldlM (Filled.extend room) ⟨[], 0⟩).map Filled.cpus

@[simp] theorem Span.length_cpus (span : Span) : span.cpus.length = span.count := by
  simp [Span.cpus]

/-- Joining two lists with a comma joins what they give. -/
theorem spans_append_comma (a b : List Char) : spans (a ++ ',' :: b) = spans a ++ spans b := by
  simp [spans, cutAll_append_sep]

end BurstRing.CpuList
