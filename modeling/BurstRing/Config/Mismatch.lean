import BurstRing.Text.Quoted
import BurstRing.Decimal.Shortest
import BurstRing.Yaml.Scalar
import BurstRing.Yaml.Node

/-!
# What is wrong with a document

A document that is well-formed may still not say what a configuration has to say.  A `Mismatch` is
such a finding; it belongs to a place, given by the path of keys and indices that leads there and
by a mark in the text.  A finding without a place gets that of the mapping around it.
-/

namespace BurstRing

/-! ### Findings -/

/-- What stands in a document where something else should. -/
inductive Found where
  | value (v : Yaml.ScalarValue)
  | sequence
  | map
  deriving DecidableEq, Repr

namespace Found

/-- An integer in words; one that needs more than 64 bits says how many it needs. -/
def integerText (n : Int) : String :=
  let plain := s!"integer \x60{n}\x60"
  if (UInt64.size : Int) ≤ n then plain ++ " as u128"
  else if n < Int64.minValue.toInt then plain ++ " as i128"
  else plain

def text : Found → String
  | .value .unit => "unit value"
  | .value (.bool b) => s!"boolean \x60{b}\x60"
  | .value (.integer n) => integerText n
  | .value (.float x) => s!"floating point \x60{x.text}\x60"
  | .value (.text s) => "string " ++ Text.quoted s
  | .sequence => "sequence"
  | .map => "map"

end Found

inductive Mismatch where
  | invalidType (found : Found) (expected : String)
  | invalidValue (found : Found) (expected : String)
  | unknownVariant (name : String) (first second : String)
  | missingField (name : String)
  | duplicateField (name : String)
  deriving DecidableEq, Repr

def Mismatch.message : Mismatch → String
  | .invalidType found expected => s!"invalid type: {found.text}, expected {expected}"
  | .invalidValue found expected => s!"invalid value: {found.text}, expected {expected}"
  | .unknownVariant name first second =>
      s!"unknown variant \x60{name}\x60, expected \x60{first}\x60 or \x60{second}\x60"
  | .missingField name => s!"missing field \x60{name}\x60"
  | .duplicateField name => s!"duplicate field \x60{name}\x60"

/-! ### Places -/

/-- One step down into a document. -/
inductive PathStep where
  | key (name : String)
  | index (i : Nat)
  /-- The value of a key that is no scalar. -/
  | unnamed
  deriving DecidableEq, Repr

/-- Steps from a place up to the root. -/
abbrev Path := List PathStep

/-- What stands before a name: the path so far and a point. -/
def Path.stem (p : Path) (text : String) : String := if p.isEmpty then "" else text ++ "."

/-- A path from the root down. -/
def Path.text : Path → String
  | [] => "."
  | .index i :: p => Path.text p ++ s!"[{i}]"
  | .key name :: p => Path.stem p (Path.text p) ++ name
  | .unnamed :: p => Path.stem p (Path.text p) ++ "?"

/-- Where a finding belongs. -/
structure Place where
  path : Path
  mark : Yaml.Mark
  deriving DecidableEq, Repr

/-- Why a document gives no settings. -/
inductive DecodeError where
  /-- The document breaks off. -/
  | brokenOff
  /-- More aliases are followed than a document of its size may have followed. -/
  | tooManyAliases
  | mismatch (finding : Mismatch) (place : Option Place)
  deriving DecidableEq, Repr

namespace DecodeError

/-- A finding whose place is still to be told. -/
def unplaced (finding : Mismatch) : DecodeError := .mismatch finding none

/-- Tells the place of a finding that has none. -/
def placeAt (place : Place) : DecodeError → DecodeError
  | .mismatch finding none => .mismatch finding (some place)
  | e => e

end DecodeError

/-- A finding in words, with its place. -/
def Mismatch.messageAt (finding : Mismatch) : Option Place → String
  | none => finding.message
  | some place =>
    (if place.path.isEmpty then "" else place.path.text ++ ": ") ++ finding.message
      ++ place.mark.suffix

end BurstRing
