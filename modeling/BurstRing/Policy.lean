/-!
# How a side is driven and how much a transfer moves

A side of a ring is driven by one caller at a time, or by any number.  A transfer moves exactly
what it asks for or nothing, or it moves what it can; and it may override the way its side is
driven.
-/

namespace BurstRing

/-- How many callers may drive one side of a ring at once. -/
inductive SyncMode where
  /-- One at a time: a claim never retries and a publication never waits; a second caller is
  found out. -/
  | single
  /-- Any number: claims race by compare-exchange and are published in claim order. -/
  | multi
  deriving DecidableEq, Repr

namespace SyncMode

instance : Inhabited SyncMode := ⟨.multi⟩

def isSingle : SyncMode → Bool
  | .single => true
  | .multi => false

/-- The word in configurations. -/
def text : SyncMode → String
  | .single => "single"
  | .multi => "multi"

/-- The tag in diagnostics. -/
def tag : SyncMode → String
  | .single => "ST"
  | .multi => "MT"

def debug : SyncMode → String
  | .single => "Single"
  | .multi => "Multi"

/-- Reads the word in configurations. -/
def ofText? : String → Option SyncMode
  | "single" => some .single
  | "multi" => some .multi
  | _ => none

end SyncMode

/-- All or nothing, or as much as possible. -/
inductive Behavior where
  /-- Exactly the number asked for, or none. -/
  | exactly
  /-- As many as there are, up to the number asked for. -/
  | atMost
  deriving DecidableEq, Repr

def Behavior.debug : Behavior → String
  | .exactly => "Fixed"
  | .atMost => "Variable"

/-- How one transfer behaves, and the mode it forces if it forces one. -/
structure Transfer where
  behavior : Behavior
  sync : Option SyncMode
  deriving DecidableEq, Repr

namespace Transfer

/-- All or nothing, in the mode of the side. -/
def bulk : Transfer := ⟨.exactly, none⟩

/-- As much as possible, in the mode of the side. -/
def burst : Transfer := ⟨.atMost, none⟩

/-- The same transfer in mode `mode`. -/
def withSync (t : Transfer) (mode : SyncMode) : Transfer := { t with sync := some mode }

/-- The mode this transfer uses on a side of mode `configured`. -/
def resolve (t : Transfer) (configured : SyncMode) : SyncMode := t.sync.getD configured

def debug (t : Transfer) : String :=
  let sync := match t.sync with
    | none => "None"
    | some m => "Some(" ++ m.debug ++ ")"
  "Transfer \x7b behavior: " ++ t.behavior.debug ++ ", sync: " ++ sync ++ " \x7d"

end Transfer

end BurstRing
