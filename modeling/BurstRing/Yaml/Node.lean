import BurstRing.Yaml.Token

/-!
# Nodes

A YAML document as a tree.  A text may break off, or stop being YAML, in the middle of a document;
the tree then holds what came before: collections that are not closed, and `missing` where a node
should have started.

An anchor gives its node a number and an alias names a number.  A number may be given more than
once, and the last node in the order of the text has it.
-/

namespace BurstRing.Yaml

/-- What stands before a node, and where the node starts. -/
structure Properties where
  anchor : Option Nat
  tag : Option Tag
  mark : Mark
  deriving DecidableEq, Repr

/-- A node without anchor and tag. -/
def Properties.bare (mark : Mark) : Properties := ⟨none, none, mark⟩

inductive Node where
  | scalar (properties : Properties) (text : String) (style : ScalarStyle)
  | sequence (properties : Properties) (items : List Node) (closed : Bool)
  | mapping (properties : Properties) (entries : List (Node × Node)) (closed : Bool)
  | alias (number : Nat) (mark : Mark)
  | missing
  deriving Repr

/-- Nodes with their numbers. -/
abbrev Anchors := List (Nat × Node)

namespace Node

/-- A plain scalar without text. -/
def empty (mark : Mark) : Node := .scalar (.bare mark) "" .plain

/-- The node itself, if it has a number. -/
def ownAnchor (p : Properties) (node : Node) : Anchors := (p.anchor.map (·, node)).toList

mutual

/-- The numbered nodes of a tree, in the order of the text. -/
def anchors : Node → Anchors
  | node@(.scalar p _ _) => ownAnchor p node
  | node@(.sequence p items _) => ownAnchor p node ++ anchorsOfItems items
  | node@(.mapping p entries _) => ownAnchor p node ++ anchorsOfEntries entries
  | .alias _ _ | .missing => []

def anchorsOfItems : List Node → Anchors
  | [] => []
  | node :: rest => anchors node ++ anchorsOfItems rest

def anchorsOfEntries : List (Node × Node) → Anchors
  | [] => []
  | (key, value) :: rest => anchors key ++ anchors value ++ anchorsOfEntries rest

end

mutual

/-- How many marks a tree takes up: one for each scalar and each alias, one for the start of a
collection and one for its end if it is closed. -/
def size : Node → Nat
  | .scalar .. | .alias .. => 1
  | .sequence _ items closed => 1 + sizeOfItems items + closed.toNat
  | .mapping _ entries closed => 1 + sizeOfEntries entries + closed.toNat
  | .missing => 0

def sizeOfItems : List Node → Nat
  | [] => 0
  | node :: rest => size node + sizeOfItems rest

def sizeOfEntries : List (Node × Node) → Nat
  | [] => 0
  | (key, value) :: rest => size key + size value + sizeOfEntries rest

end

mutual

/-- Nothing is missing from the tree and every collection in it is closed. -/
def isComplete : Node → Bool
  | .scalar .. | .alias .. => true
  | .sequence _ items closed => areComplete items && closed
  | .mapping _ entries closed => entriesAreComplete entries && closed
  | .missing => false

def areComplete : List Node → Bool
  | [] => true
  | node :: rest => isComplete node && areComplete rest

def entriesAreComplete : List (Node × Node) → Bool
  | [] => true
  | (key, value) :: rest => isComplete key && isComplete value && entriesAreComplete rest

end

end Node

/-- The node that has a number. -/
def Anchors.find? (anchors : Anchors) (number : Nat) : Option Node :=
  (List.find? (·.1 == number) (List.reverse anchors)).map (·.2)

/-- The node an alias stands for; any other node stands for itself. -/
def Node.resolve (anchors : Anchors) : Node → Node
  | .alias number mark => (anchors.find? number).getD (.alias number mark)
  | node => node

end BurstRing.Yaml
