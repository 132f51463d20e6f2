import BurstRing.Config.Mismatch
import BurstRing.Config.Settings

/-!
# Settings from a document

Reads the tree of a document as settings.  A mapping is read entry by entry: a key that names a
setting has its value read, any other is passed over, and what is still missing at the end has its
default or is an error.  Findings come in the order of the text.

A plain empty scalar counts as an empty mapping or an empty sequence.  An alias counts as the node
it stands for; a document allows only so many of them to be followed, and each that is followed
uses one up.
-/

namespace BurstRing

open Yaml

/-- Reading of a node.  The state is how many aliases may still be followed. -/
abbrev Decoder := StateT Nat (Except DecodeError)

/-- Where reading stands: the nodes that aliases stand for, and the path so far. -/
structure Scope where
  anchors : Anchors
  path : Path

/-- Mark of a node. -/
def markOf : Node → Mark
  | .scalar p _ _ | .sequence p _ _ | .mapping p _ _ => p.mark
  | .alias _ mark => mark
  | .missing => .origin

/-- Ends the reading with a finding that has no place yet. -/
def reportUnplaced {α : Type} (finding : Mismatch) : Decoder α := throw (.unplaced finding)

/-- Ends the reading where the document does. -/
def breakOff {α : Type} : Decoder α := throw .brokenOff

namespace Scope

def enter (step : PathStep) (scope : Scope) : Scope := { scope with path := step :: scope.path }

/-- Gives findings without a place this one. -/
def locate {α : Type} (scope : Scope) (mark : Mark) (d : Decoder α) : Decoder α :=
  fun left => (d left).mapError (DecodeError.placeAt ⟨scope.path, mark⟩)

/-- The node that `node` stands for. -/
def follow (scope : Scope) (node : Node) : Decoder Node := do
  match node with
  | .alias .. =>
    let left ← get
    if left = 0 then throw .tooManyAliases
    else
      set (left - 1)
      return node.resolve scope.anchors
  | node => return node

/-- Reads what `node` stands for by `decode`.  Findings without a place belong where that node
is. -/
def read {α : Type} (scope : Scope) (node : Node) (decode : Node → Decoder α) : Decoder α := do
  let node ← scope.follow node
  scope.locate (markOf node) (decode node)

end Scope

/-! ### Single values -/

/-- Refuses a node where `expected` should be. -/
def refuse {α : Type} (expected : String) : Node → Decoder α
  | .scalar p s style =>
    match readScalar p.tag s style with
    | .ok v => reportUnplaced (.invalidType (.value v) expected)
    | .error kind => reportUnplaced (.invalidValue (.value (.text s)) kind)
  | .sequence .. => reportUnplaced (.invalidType .sequence expected)
  | .mapping .. => reportUnplaced (.invalidType .map expected)
  | .alias .. | .missing => breakOff

/-- The text of any scalar. -/
def decodeText (expected : String) (scope : Scope) (node : Node) : Decoder String :=
  scope.read node fun
    | .scalar _ s _ => pure s
    | node => refuse expected node

/-- A scalar that may be read as a number: a plain one, or a literal block tagged as an integer. -/
def isNumeric (p : Properties) (style : ScalarStyle) : Bool :=
  style == .plain || (style == .literal && p.tag == some intTag)

/-- A natural number below `bound`, which is a power of two up to `2 ^ 64`. -/
def decodeNat (bound : Nat) (expected : String) (scope : Scope) (node : Node) : Decoder Nat :=
  scope.read node fun node =>
    match node with
    | .scalar p s style =>
      match if isNumeric p style then readNat? UInt64.size s.toList else none with
      | some n =>
        if n < bound then pure n
        else reportUnplaced (.invalidValue (.value (.integer n)) expected)
      | none => refuse expected node
    | node => refuse expected node

def decodeWord (scope : Scope) (node : Node) : Decoder UInt64 :=
  Nat.toUInt64 <$> decodeNat UInt64.size "usize" scope node

def decodeHalfWord (scope : Scope) (node : Node) : Decoder UInt32 :=
  Nat.toUInt32 <$> decodeNat UInt32.size "u32" scope node

/-- A scalar that stands for nothing, whatever its tag. -/
def isBlankScalar (s : String) (style : ScalarStyle) : Bool :=
  style == .plain && (s == "" || isNull s)

/-- A word that may be left blank. -/
def decodeOptionalWord (scope : Scope) (node : Node) : Decoder (Option UInt64) := do
  let node ← scope.follow node
  let present := some <$> decodeWord scope node
  match node with
  | .scalar p s .plain =>
    match p.tag with
    | none => if isBlankScalar s .plain then return none else present
    | some tag =>
      if tag = nullTag then
        if isNull s then return none
        else reportUnplaced (.invalidValue (.value (.text s)) "null")
      else present
  | _ => present

/-! ### Modes -/

def unknownMode {α : Type} (name : String) : Decoder α :=
  reportUnplaced (.unknownVariant name "single" "multi")

def modeOf (name : String) : Decoder SyncMode :=
  match SyncMode.ofText? name with
  | some mode => pure mode
  | none => unknownMode name

/-- A mode that a tag names; the node itself has to stand for nothing. -/
def decodeTaggedMode (scope : Scope) (name : String) (node : Node) : Decoder SyncMode := do
  let mode ← modeOf name
  scope.locate (markOf node) <|
    match node with
    | .scalar _ s style =>
      if isBlankScalar s style then pure mode
      else reportUnplaced (.invalidValue (.value (.text s)) "null")
    | node => refuse "unit" node

/-- A mode as a word, or as the name of a tag before nothing, of a node that is no alias. -/
def decodeOwnMode (scope : Scope) (node : Node) : Decoder SyncMode :=
  let untagged (found : Found) : Decoder SyncMode :=
    scope.locate (markOf node)
      (reportUnplaced (.invalidType found "a YAML tag starting with '!'"))
  match node with
  | .scalar p s _ =>
    match p.tag.bind Tag.name? with
    | some name => decodeTaggedMode scope name node
    | none => scope.locate p.mark (modeOf s)
  | .sequence p _ _ =>
    match p.tag.bind Tag.name? with
    | some name => decodeTaggedMode scope name node
    | none => untagged .sequence
  | .mapping p _ _ =>
    match p.tag.bind Tag.name? with
    | some name => decodeTaggedMode scope name node
    | none => untagged .map
  | .alias .. | .missing => breakOff

/-- A mode.  An unknown name of a tag belongs to the mapping around it, but to the alias if there
is one. -/
def decodeMode (scope : Scope) (node : Node) : Decoder SyncMode :=
  match node with
  | .alias _ mark => do
    let node ← scope.follow node
    scope.locate mark (decodeOwnMode scope node)
  | node => decodeOwnMode scope node

/-! ### Mappings -/

/-- A setting of a mapping whose settings are gathered in `ρ`. -/
structure Field (ρ : Type) where
  name : String
  isSet : ρ → Bool
  read : Scope → Node → ρ → Decoder ρ

/-- A setting that is read by `decode` and kept in an optional place of `ρ`. -/
def Field.of {ρ α : Type} (name : String) (get : ρ → Option α) (set : α → ρ → ρ)
    (decode : Scope → Node → Decoder α) : Field ρ where
  name := name
  isSet draft := (get draft).isSome
  read scope node draft := (fun a => set a draft) <$> decode scope node

/-- The step to the value of a key. -/
def stepTo : Node → PathStep
  | .scalar _ s _ => .key s
  | _ => .unnamed

/-- Passes over a node that nothing asks for. -/
def passOver (node : Node) : Decoder Unit := if node.isComplete then pure () else breakOff

variable {ρ : Type}

/-- Reads one entry into `draft`. -/
def decodeEntry (fields : List (Field ρ)) (scope : Scope) (key value : Node) (draft : ρ) :
    Decoder ρ := do
  let name ← decodeText "field identifier" scope key
  match fields.find? (·.name == name) with
  | none =>
    passOver value
    return draft
  | some field =>
    if field.isSet draft then reportUnplaced (.duplicateField name)
    else field.read (scope.enter (stepTo key)) value draft

/-- Reads all entries, in order. -/
def decodeEntries (fields : List (Field ρ)) (scope : Scope) :
    List (Node × Node) → ρ → Decoder ρ
  | [], draft => pure draft
  | (key, value) :: rest, draft => do
    let draft ← decodeEntry fields scope key value draft
    decodeEntries fields scope rest draft

/-- Reads a mapping, and finishes with what it has. -/
def decodeMapping {α : Type} (fields : List (Field ρ)) (start : ρ) (finish : ρ → Decoder α)
    (expected : String) (scope : Scope) (node : Node) : Decoder α :=
  scope.read node fun
    | .mapping _ entries closed => do
      let draft ← decodeEntries fields scope entries start
      if closed then finish draft else breakOff
    | .scalar _ "" .plain => finish start
    | node => refuse expected node

/-- A setting that may not be left out. -/
def require {α : Type} (name : String) : Option α → Decoder α
  | some a => pure a
  | none => reportUnplaced (.missingField name)

/-! ### The sections -/

/-- Settings of a ring, as far as they have been read. -/
structure RingDraft where
  name : Option String := none
  capacity : Option UInt64 := none
  elementSize : Option UInt64 := none
  producer : Option SyncMode := none
  consumer : Option SyncMode := none

namespace RingDraft

def fields : List (Field RingDraft) :=
  [.of "name" name (fun a d => { d with name := some a }) (decodeText "a string"),
    .of "capacity" capacity (fun a d => { d with capacity := some a }) decodeWord,
    .of "element_size" elementSize (fun a d => { d with elementSize := some a }) decodeWord,
    .of "producer" producer (fun a d => { d with producer := some a }) decodeMode,
    .of "consumer" consumer (fun a d => { d with consumer := some a }) decodeMode]

def finish (d : RingDraft) : Decoder RingSettings := do
  let name ← require "name" d.name
  let capacity ← require "capacity" d.capacity
  return ⟨name, capacity, d.elementSize.getD handleSize.toUInt64, d.producer.getD .multi,
    d.consumer.getD .multi⟩

end RingDraft

def decodeRing : Scope → Node → Decoder RingSettings :=
  decodeMapping RingDraft.fields {} RingDraft.finish "struct RawRingConfig"

/-- The items of a sequence on from place `index`. -/
def decodeItems {α : Type} (decode : Scope → Node → Decoder α) (scope : Scope) :
    (index : Nat) → List Node → Decoder (List α)
  | _, [] => pure []
  | index, node :: rest => do
    let a ← decode (scope.enter (.index index)) node
    let as ← decodeItems decode scope (index + 1) rest
    return a :: as

def decodeRings (scope : Scope) (node : Node) : Decoder (List RingSettings) :=
  scope.read node fun
    | .sequence _ items closed => do
      let rings ← decodeItems decodeRing scope 0 items
      if closed then return rings else breakOff
    | .scalar _ "" .plain => return []
    | node => refuse "a sequence" node

/-- Settings of a loop, as far as they have been read. -/
structure LoopDraft where
  flushInterval : Option UInt32 := none
  burstSize : Option UInt64 := none

namespace LoopDraft

def fields : List (Field LoopDraft) :=
  [.of "flush_interval" flushInterval (fun a d => { d with flushInterval := some a })
      decodeHalfWord,
    .of "burst_size" burstSize (fun a d => { d with burstSize := some a }) decodeWord]

def finish (d : LoopDraft) : Decoder LoopSettings :=
  pure ⟨d.flushInterval.getD defaultFlushInterval, d.burstSize.getD defaultBurstSize⟩

end LoopDraft

def decodeLoop : Scope → Node → Decoder LoopSettings :=
  decodeMapping LoopDraft.fields {} LoopDraft.finish "struct RawPipelineConfig"

/-- Settings of receive caches, as far as they have been read. -/
structure CacheDraft where
  size : Option UInt64 := none
  node : Option (Option UInt64) := none

namespace CacheDraft

def fields : List (Field CacheDraft) :=
  [.of "size" size (fun a d => { d with size := some a }) decodeWord,
    .of "numa_node" node (fun a d => { d with node := some a }) decodeOptionalWord]

def finish (d : CacheDraft) : Decoder CacheSettings :=
  pure ⟨d.size.getD defaultCacheSize, d.node.join⟩

end CacheDraft

def decodeCache : Scope → Node → Decoder CacheSettings :=
  decodeMapping CacheDraft.fields {} CacheDraft.finish "struct RawReceiveCacheConfig"

/-- All settings, as far as they have been read. -/
structure SettingsDraft where
  rings : Option (List RingSettings) := none
  pipeline : Option LoopSettings := none
  cache : Option CacheSettings := none

namespace SettingsDraft

def fields : List (Field SettingsDraft) :=
  [.of "rings" rings (fun a d => { d with rings := some a }) decodeRings,
    .of "pipeline" pipeline (fun a d => { d with pipeline := some a }) decodeLoop,
    .of "receive_cache" cache (fun a d => { d with cache := some a }) decodeCache]

def finish (d : SettingsDraft) : Decoder Settings := do
  let rings ← require "rings" d.rings
  return ⟨rings, d.pipeline.getD {}, d.cache.getD {}⟩

end SettingsDraft

/-- The settings of a whole document, with at most `limit` aliases followed. -/
def decodeSettings (anchors : Anchors) (limit : Nat) (root : Node) : Except DecodeError Settings :=
  (decodeMapping SettingsDraft.fields {} SettingsDraft.finish "struct RawConfig" ⟨anchors, []⟩
    root).run' limit

end BurstRing
