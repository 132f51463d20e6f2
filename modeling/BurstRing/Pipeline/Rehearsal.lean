import BurstRing.Pipeline.Loop

/-!
# Rehearsals of a loop

An engine that does nothing but take notes.  A script says what the control callback returns and
when the stop switch is raised, and the notes say after how many steps the loop flushed and asked.
-/

namespace BurstRing

/-- How a rehearsal goes. -/
structure Script where
  /-- What successive control calls return; one when they run out. -/
  codes : Array Int32
  /-- The step in which the switch is raised. -/
  raiseAtStep : Option Nat
  /-- The control call in which the switch is raised, after its answer is settled. -/
  raiseAtControl : Option Nat
  /-- The control callback follows the switch, not the codes. -/
  followsSwitch : Bool
  /-- The loop watches the switch, and not a flag that nobody sets. -/
  watchesSwitch : Bool

/-- A flush or a control call, after so many steps. -/
inductive LoopNote where
  | flushed (steps : Nat)
  | asked (steps : Nat) (signal : ControlSignal)
  deriving DecidableEq, Repr

def LoopNote.text : LoopNote → String
  | .flushed steps => s!"flush@{steps}"
  | .asked steps signal => s!"control@{steps}={signal.debug}"

/-- Steps and control calls so far, the switch, and the notes. -/
structure Rehearsal where
  steps : Nat
  asked : Nat
  switch : StopSwitch
  notes : Array LoopNote

namespace Rehearsal

def initial (raised : Bool) : Rehearsal := ⟨0, 0, ⟨raised⟩, #[]⟩

/-- Raises the switch if it is time. -/
def raiseIf (due : Bool) (r : Rehearsal) : Rehearsal :=
  { r with switch := ⟨r.switch.raised || due⟩ }

def runStep (script : Script) (r : Rehearsal) : Rehearsal :=
  let steps := r.steps + 1
  { r with steps }.raiseIf (script.raiseAtStep == some steps)

def flush (r : Rehearsal) : Rehearsal := { r with notes := r.notes.push (.flushed r.steps) }

def control (script : Script) (r : Rehearsal) : ControlSignal × Rehearsal :=
  let asked := r.asked + 1
  let signal :=
    if script.followsSwitch then r.switch.control
    else .ofCode (script.codes.getD r.asked 1)
  (signal,
    { r with asked, notes := r.notes.push (.asked r.steps signal) }.raiseIf
      (script.raiseAtControl == some asked))

def engine (script : Script) : Engine Rehearsal where
  runStep := runStep script
  flush := flush
  control := control script
  stopRequested r := script.watchesSwitch && r.switch.raised

end Rehearsal

end BurstRing
