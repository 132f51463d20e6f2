import BurstRing.Flush

/-!
# The drive loop

A loop runs a processing engine step after step.  At every iteration that is a multiple of its
flush interval it has the engine flush and asks a control callback whether to go on; after a
`proceed` it looks at the stop flag.  A loop that never flushes looks at the stop flag after every
step instead.

`Engine` is what a loop drives, as functions on a state: the stop flag is a function of that state
too, so steps, flushes and control calls may raise it, and so may whoever else shares the state.
`Engine.advance` makes one move of the loop.
-/

namespace BurstRing

/-! ### Control signals -/

/-- Verdict of a control callback. -/
inductive ControlSignal where
  | proceed
  | stop
  | fail (code : Int32)
  deriving DecidableEq, Repr

namespace ControlSignal

/-- Zero goes on, a positive code stops, a negative one fails. -/
def ofCode (code : Int32) : ControlSignal :=
  if code = 0 then .proceed else if 0 < code then .stop else .fail code

def debug : ControlSignal → String
  | .proceed => "Continue"
  | .stop => "Stop"
  | .fail code => Text.applied "Fail" (toString code.toInt)

end ControlSignal

/-! ### Reports -/

/-- Why a loop ended well. -/
inductive StopReason where
  /-- The control callback asked for it. -/
  | control
  /-- The stop flag was set. -/
  | stopFlag
  deriving DecidableEq, Repr

def StopReason.debug : StopReason → String
  | .control => "Control"
  | .stopFlag => "StopFlag"

/-- Counters of a loop that ended well. -/
structure LoopReport where
  iterations : UInt64
  flushes : UInt64
  exit : StopReason
  deriving DecidableEq, Repr

/-- How a loop ended. -/
abbrev LoopEnd := Except PipelineError LoopReport

/-! ### Moves -/

/-- What a loop does next. -/
inductive LoopPoint where
  | step
  | flush
  | control
  /-- Look at the stop flag. -/
  | check
  deriving DecidableEq, Repr

/-- A loop under way: steps and flushes made so far, and what comes next. -/
structure LoopState where
  point : LoopPoint
  iterations : UInt64
  flushes : UInt64
  deriving DecidableEq, Repr

namespace LoopState

/-- A loop that has not begun. -/
def initial : LoopState := ⟨.step, 0, 0⟩

/-- What comes after the step of number `iteration`. -/
def afterStep (interval : FlushInterval) (iteration : UInt64) : LoopPoint :=
  if interval.isNever then .check
  else if interval.isDue iteration then .flush
  else .step

def report (s : LoopState) (exit : StopReason) : LoopReport := ⟨s.iterations, s.flushes, exit⟩

end LoopState

/-- What a loop drives. -/
structure Engine (σ : Type) where
  /-- One pass over the inputs. -/
  runStep : σ → σ
  /-- Emit whatever is buffered. -/
  flush : σ → σ
  /-- Ask whether to go on. -/
  control : σ → ControlSignal × σ
  /-- The stop flag is set. -/
  stopRequested : σ → Bool

namespace Engine

variable {σ : Type}

/-- One move of a loop: where it stands after it, or how it ended. -/
def advance (e : Engine σ) (interval : FlushInterval) (s : LoopState) (x : σ) :
    (LoopState ⊕ LoopEnd) × σ :=
  match s.point with
  | .step =>
    let iteration := s.iterations + 1
    (.inl ⟨LoopState.afterStep interval iteration, iteration, s.flushes⟩, e.runStep x)
  | .flush => (.inl { s with point := .control, flushes := s.flushes + 1 }, e.flush x)
  | .control =>
    let (signal, x) := e.control x
    (match signal with
      | .proceed => .inl { s with point := .check }
      | .stop => .inr (.ok (s.report .control))
      | .fail code => .inr (.error (.control code s.iterations)), x)
  | .check =>
    if e.stopRequested x then (.inr (.ok (s.report .stopFlag)), x)
    else (.inl { s with point := .step }, x)

/-- Moves on from `s` until the loop ends; none if it takes more than `fuel` moves. -/
def runFrom (e : Engine σ) (interval : FlushInterval) :
    (fuel : Nat) → LoopState → σ → Option LoopEnd × σ
  | 0, _, x => (none, x)
  | fuel + 1, s, x =>
    match e.advance interval s x with
    | (.inl s, x) => runFrom e interval fuel s x
    | (.inr how, x) => (some how, x)

/-- A whole loop of at most `fuel` moves. -/
def run (e : Engine σ) (interval : FlushInterval) (fuel : Nat) (x : σ) : Option LoopEnd × σ :=
  e.runFrom interval fuel .initial x

end Engine

/-! ### Stopping -/

/-- A switch that several loops and workers watch. -/
structure StopSwitch where
  raised : Bool
  deriving DecidableEq, Repr

/-- The switch as a control callback. -/
def StopSwitch.control (s : StopSwitch) : ControlSignal := if s.raised then .stop else .proceed

end BurstRing
