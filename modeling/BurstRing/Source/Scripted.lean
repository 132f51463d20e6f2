import BurstRing.Source.Basic

/-!
# Scripted sources

A source that plays prepared batches, well-behaved or not, and keeps a log of everything it is
asked to do.
-/

namespace BurstRing

/-- The identifier a source fails to know. -/
inductive UnknownPart where
  | source
  | channel
  deriving DecidableEq, Repr

/-- What a scripted source does on one call.  It reports the number of handles appended, unless
it has to report another number or to fail. -/
structure Batch where
  handles : Array UInt64
  /-- Append all handles, however few are wanted. -/
  ignoresMax : Bool
  reported : Option Nat
  fault : Option UnknownPart
  deriving Repr

/-- One call that a scripted source has seen. -/
inductive SourceEvent where
  | received (source : SourceId) (channel : ChannelId) (held max : Nat)
  | released (handle : UInt64)
  deriving DecidableEq, Repr

/-- The batches still to be played, and all calls so far. -/
structure ScriptedSource where
  batches : List Batch
  log : Array SourceEvent
  deriving Repr

namespace Batch

/-- Nothing. -/
def none : Batch := ⟨#[], false, .none, .none⟩

/-- The burst that a batch amounts to, for a request of at most `max`. -/
def burst (b : Batch) (source : SourceId) (channel : ChannelId) (max : Nat) : Burst :=
  let appended := if b.ignoresMax then b.handles else b.handles.extract 0 max
  ⟨appended,
    match b.fault with
    | some .source => .error (.unknownSource source)
    | some .channel => .error (.unknownChannel source channel)
    | .none => .ok (b.reported.getD appended.size)⟩

end Batch

namespace ScriptedSource

def receive (source : SourceId) (channel : ChannelId) (held max : Nat) (s : ScriptedSource) :
    Burst × ScriptedSource :=
  ((s.batches.headD .none).burst source channel max,
    ⟨s.batches.tail, s.log.push (.received source channel held max)⟩)

def release (handle : UInt64) (s : ScriptedSource) : ScriptedSource :=
  { s with log := s.log.push (.released handle) }

instance : BurstSource ScriptedSource := ⟨receive, release⟩

end ScriptedSource

end BurstRing
