import BurstRing.Text.Numeral

/-!
# Identifiers of sources and channels

A source of handles is known by a 16-bit number, and so is each of its channels.
-/

namespace BurstRing

/-- A source of handles: a network interface, a socket. -/
structure SourceId where
  value : UInt16
  deriving DecidableEq, Repr, Inhabited

/-- A channel within a source. -/
structure ChannelId where
  value : UInt16
  deriving DecidableEq, Repr, Inhabited

namespace SourceId

def text (s : SourceId) : String := toString s.value.toNat

/-- A decimal number below `2 ^ 16`. -/
def read (cs : List Char) : Except Text.NumeralError SourceId :=
  (Text.readUnsigned 10 UInt16.size cs).map fun n => ⟨n.toUInt16⟩

instance : Ord SourceId := ⟨fun a b => compare a.value.toNat b.value.toNat⟩

instance : Std.TransOrd SourceId where
  eq_swap := Nat.instTransOrd.eq_swap
  isLE_trans := Nat.instTransOrd.isLE_trans

theorem compare_lt {a b : SourceId} : compare a b = .lt ↔ a.value < b.value :=
  Nat.compare_eq_lt

instance : Std.LawfulEqOrd SourceId where
  compare_self := Nat.compare_eq_eq.mpr rfl
  eq_of_compare {a b} h := by
    have hvalue : a.value.toNat = b.value.toNat := Nat.compare_eq_eq.mp h
    cases a
    cases b
    exact congrArg mk (UInt16.toNat_inj.mp hvalue)

end SourceId

def ChannelId.text (c : ChannelId) : String := toString c.value.toNat

end BurstRing
