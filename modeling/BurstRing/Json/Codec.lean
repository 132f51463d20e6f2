import BurstRing.Json.Reader
import BurstRing.Json.Writer
import BurstRing.Config.Basic

/-!
# Values as JSON

How each value is written as JSON and read back.  A reader takes every spelling that stands for
the value: a word may also be the one member of an object, a ring's settings may come as an array
of all of them, and members that nothing asks for are passed over.  What is read has been through
the same checks as any other value.
-/

namespace BurstRing

/-- A type with a JSON form. -/
class JsonForm (α : Type) where
  encode : α → Json
  decode? : Json → Option α

namespace Json

/-- A number below `bound`. -/
def natBelow? (bound : Nat) : Json → Option Nat
  | .number (.natural n) => if n < bound then some n else none
  | _ => none

def string? : Json → Option String
  | .string s => text? s
  | _ => none

/-- A word by itself, or as the one member of an object, with what the member holds. -/
def word? : Json → Option (String × Option Json)
  | .string s => (text? s).map (·, none)
  | .object [(k, v)] => (text? k).map (·, some v)
  | _ => none

end Json

open Json

namespace RingName

def encode (n : RingName) : Json := Json.ofString n.text

def decode? (j : Json) : Option RingName := j.string?.bind fun s => (ofString s).toOption

instance : JsonForm RingName := ⟨encode, decode?⟩

end RingName

namespace SyncMode

def encode (m : SyncMode) : Json := Json.ofString m.text

def decode? (j : Json) : Option SyncMode :=
  match j.word? with
  | some (w, none) | some (w, some .null) => ofText? w
  | _ => none

instance : JsonForm SyncMode := ⟨encode, decode?⟩

end SyncMode

namespace Locality

def encode : Locality → Json
  | .any => Json.ofString "any"
  | .node n => Json.ofMembers [("node", Json.ofNat n.toNat)]

def decode? (j : Json) : Option Locality :=
  match j.word? with
  | some ("any", none) | some ("any", some .null) => some .any
  | some ("node", some v) => (v.natBelow? UInt64.size).map fun n => .node n.toUInt64
  | _ => none

instance : JsonForm Locality := ⟨encode, decode?⟩

end Locality

namespace FlushInterval

def encode (f : FlushInterval) : Json := Json.ofNat f.value.toNat

def decode? (j : Json) : Option FlushInterval :=
  (j.natBelow? UInt32.size).bind fun n => (ofWord n.toUInt32).toOption

instance : JsonForm FlushInterval := ⟨encode, decode?⟩

end FlushInterval

namespace SourceId

def encode (s : SourceId) : Json := Json.ofNat s.value.toNat

def decode? (j : Json) : Option SourceId := (j.natBelow? UInt16.size).map fun n => ⟨n.toUInt16⟩

instance : JsonForm SourceId := ⟨encode, decode?⟩

end SourceId

namespace ChannelId

def encode (c : ChannelId) : Json := Json.ofNat c.value.toNat

def decode? (j : Json) : Option ChannelId := (j.natBelow? UInt16.size).map fun n => ⟨n.toUInt16⟩

instance : JsonForm ChannelId := ⟨encode, decode?⟩

end ChannelId

namespace RingConfig

/-- The names of the settings, in order. -/
def fieldNames : List String := ["name", "capacity", "element_size", "producer", "consumer"]

def encode (c : RingConfig) : Json :=
  Json.ofMembers
    [("name", c.name.encode), ("capacity", Json.ofNat c.capacity.toNat),
      ("element_size", Json.ofNat c.elementSize.toNat), ("producer", c.producer.encode),
      ("consumer", c.consumer.encode)]

/-- Reads all five settings, given in order. -/
def ofItems? : List Json → Option RingConfig
  | [name, capacity, elementSize, producer, consumer] => do
    let name ← RingName.decode? name
    let capacity ← capacity.natBelow? UInt64.size
    let elementSize ← elementSize.natBelow? UInt64.size
    let producer ← SyncMode.decode? producer
    let consumer ← SyncMode.decode? consumer
    some ⟨name, capacity.toUInt64, elementSize.toUInt64, producer, consumer⟩
  | _ => none

/-- The one member called `name`; none if it is missing or there are several. -/
def only? (members : List (String × Json)) (name : String) : Option Json :=
  match members.filter (·.1 == name) with
  | [(_, v)] => some v
  | _ => none

def decode? : Json → Option RingConfig
  | .array items => ofItems? items
  | .object members => do
    let members ← members.mapM fun (k, v) => (text? k).map (·, v)
    let items ← fieldNames.mapM (only? members)
    ofItems? items
  | _ => none

instance : JsonForm RingConfig := ⟨encode, decode?⟩

end RingConfig

/-- Reads a value from a JSON text. -/
def readJson? (α : Type) [JsonForm α] (text : String) : Option α :=
  (Json.parse? text).bind JsonForm.decode?

/-- Writes a value as a JSON text. -/
def writeJson {α : Type} [JsonForm α] (a : α) : String := (JsonForm.encode a).compact

end BurstRing
