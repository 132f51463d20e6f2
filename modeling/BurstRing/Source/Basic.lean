import BurstRing.Error

/-!
# Burst sources

A burst source hands out handles by the burst and takes them back one by one.  Asked for a burst it
appends some handles to those its caller holds, and then either reports how many there were or
fails.  Nothing forces it to keep to the number asked for, or to report the truth: whoever calls
it has to check.
-/

namespace BurstRing

/-- What a source did when it was asked for a burst: the handles it appended, and its report. -/
structure Burst where
  appended : Array UInt64
  report : Except SourceError Nat

/-- Something that supplies handles.  `receive` is told how many handles its caller holds already
and how many more it wants at most. -/
class BurstSource (σ : Type) where
  receive : SourceId → ChannelId → (held max : Nat) → σ → Burst × σ
  release : UInt64 → σ → σ

/-- Takes back several handles, in order. -/
def BurstSource.releaseAll {σ : Type} [BurstSource σ] (handles : List UInt64) (s : σ) : σ :=
  handles.foldl (fun s h => release h s) s

end BurstRing
