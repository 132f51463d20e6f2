import BurstRing.Ring.Cursors

/-!
# Claims against scripted readings

One pair of cursors under claims whose availability is told reading by reading, and in the middle
of which other callers may claim on the same cursors.  `Cursors.claim` plays a `ClaimScript` until
one of its readings decides: a reading beyond the limit is skipped, a reading with nothing to take
ends in nothing, and else the head is exchanged, which another caller's claim may have spoiled.

`Ledger` keeps the claims granted on one pair, in the order in which their exchange succeeded, and
publishes them by their number.
-/

namespace BurstRing

/-- What a reading reports to a caller who loaded a head. -/
inductive Supply where
  /-- So many positions. -/
  | entries (n : UInt64)
  /-- The positions from the head up to this opposing tail. -/
  | upTo (tail : UInt64)
  deriving DecidableEq, Repr

def Supply.at : Supply → (head : UInt64) → UInt64
  | .entries n, _ => n
  | .upTo tail, head => tail - head

/-- A claim to be made. -/
structure Request where
  wanted : UInt64
  behavior : Behavior
  mode : SyncMode
  deriving DecidableEq, Repr

/-- What happens while a claim is being made. -/
inductive ClaimScript where
  /-- Nothing more. -/
  | done
  /-- Another caller makes a claim of its own, with all that happens while it is being made; its
  limit is that of the claim it interrupts unless it is told here. -/
  | rival (request : Request) (limit : Option UInt64) (script rest : ClaimScript)
  /-- The availability is read; unless that decides, the head is loaded again. -/
  | reading (supply : Supply) (rest : ClaimScript)
  deriving DecidableEq, Repr

/-- One reading of the availability; another caller may claim just before it, against a supply of
its own that it reads once. -/
structure Reading where
  rival : Option (Request × UInt64)
  supply : Supply
  deriving DecidableEq, Repr

/-- The script of readings one after another. -/
def ClaimScript.ofReadings : List Reading → ClaimScript
  | [] => .done
  | r :: readings =>
    let rest := .reading r.supply (ofReadings readings)
    match r.rival with
    | none => rest
    | some (request, available) =>
      .rival request none (.reading (.entries available) .done) rest

instance : Coe (List Reading) ClaimScript := ⟨ClaimScript.ofReadings⟩

/-- How a claim ended. -/
inductive Outcome where
  | granted (claim : Claim)
  | nothing
  | misuse
  /-- No reading decided. -/
  | undecided
  deriving DecidableEq, Repr

/-- A claim that has been made: how it ended, how many readings it took, how the claims made in
its middle ended, and the cursors after it. -/
structure ClaimReport where
  outcome : Outcome
  reads : Nat
  rivals : List Outcome
  cursors : Cursors
  deriving DecidableEq, Repr

namespace Cursors

/-- Plays `script` to a claim that has loaded the head `start`, until a reading decides. -/
def play : ClaimScript → (limit : UInt64) → Request → (start : UInt64) → Cursors → ClaimReport
  | .done, _, _, _, s => ⟨.undecided, 0, [], s⟩
  | .rival other otherLimit script rest, limit, request, start, s =>
    let inner := play script (otherLimit.getD limit) other s.head s
    let report := play rest limit request start inner.cursors
    { report with rivals := inner.rivals ++ inner.outcome :: report.rivals }
  | .reading supply rest, limit, request, start, s =>
    let again : ClaimReport :=
      let report := play rest limit request s.head s
      { report with reads := report.reads + 1 }
    match judge (some limit) request.wanted request.behavior start (supply.at start) with
    | .reread => again
    | .nothing => ⟨.nothing, 1, [], s⟩
    | .reserve claim =>
      match s.exchange request.mode claim with
      | (.granted, s) => ⟨.granted claim, 1, [], s⟩
      | (.lost, _) => again
      | (.misuse, s) => ⟨.misuse, 1, [], s⟩

/-- Makes a claim while `script` happens. -/
def claim (limit : UInt64) (request : Request) (script : ClaimScript) (s : Cursors) : ClaimReport :=
  play script limit request s.head s

/-- A claim by the only caller of the side: one reading decides, and the head is stored. -/
def claimOwned (wanted : UInt64) (behavior : Behavior) (supply : Supply) (s : Cursors) :
    ClaimReport :=
  match judge none wanted behavior s.head (supply.at s.head) with
  | .reread | .nothing => ⟨.nothing, 1, [], s⟩
  | .reserve claim => ⟨.granted claim, 1, [], s.reserve claim⟩

end Cursors

/-! ### Histories of one pair -/

/-- One pair of cursors with every claim granted on it so far, in order. -/
structure Ledger where
  cursors : Cursors
  granted : Array Claim
  deriving Repr

/-- Something done to one pair of cursors. -/
inductive Deed where
  | claim (request : Request) (script : ClaimScript)
  | claimOwned (wanted : UInt64) (behavior : Behavior) (supply : Supply)
  /-- Publish the granted claim of this number. -/
  | publish (id : Nat) (mode : SyncMode)
  | publishOwned (id : Nat)
  deriving Repr

/-- What came of it. -/
inductive Result where
  | claimed (report : ClaimReport)
  | published (how : Publication)
  /-- No claim of that number has been granted. -/
  | unknown
  deriving Repr

namespace Ledger

def empty : Ledger := ⟨.startingAt 0, #[]⟩

/-- The claims a report grants, those made in its middle first. -/
def grants (report : ClaimReport) : List Claim :=
  (report.rivals ++ [report.outcome]).filterMap fun
    | .granted c => some c
    | _ => none

/-- Files a report. -/
def enter (report : ClaimReport) (l : Ledger) : Result × Ledger :=
  (.claimed report, ⟨report.cursors, l.granted ++ (grants report).toArray⟩)

/-- Does `deed` under `limit`. -/
def act (limit : UInt64) (deed : Deed) (l : Ledger) : Result × Ledger :=
  match deed with
  | .claim request script => l.enter (l.cursors.claim limit request script)
  | .claimOwned wanted behavior supply => l.enter (l.cursors.claimOwned wanted behavior supply)
  | .publish id mode =>
    match l.granted[id]? with
    | none => (.unknown, l)
    | some c =>
      let (how, cursors) := l.cursors.publish mode c
      (.published how, { l with cursors })
  | .publishOwned id =>
    match l.granted[id]? with
    | none => (.unknown, l)
    | some c => (.published .published, { l with cursors := l.cursors.release c })

end Ledger

end BurstRing
