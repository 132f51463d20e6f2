import BurstRing.Source.Basic
import BurstRing.Ring.Basic

/-!
# Receive caches

A receive cache stands between a burst source and whoever uses its handles.  A refill pulls a burst
into the cache, and from there handles are taken one at a time or forwarded into a ring.  Handles
that nobody has read go back to the source, before the next refill and at the end, so that every
handle the source ever appended is taken, forwarded, released once, or still unread.

A source that breaks its word gets everything back, and the refill fails.
-/

namespace BurstRing

/-- Bytes that a cache carries for its user. -/
def userAreaSize : Nat := 64

/-- Whom a cache asks for handles, and the bytes it carries for its user. -/
structure CacheHeader where
  source : SourceId
  channel : ChannelId
  user : Vector UInt8 userAreaSize
  deriving DecidableEq

namespace CacheHeader

/-- A header whose user bytes are zero. -/
def ofIds (source : SourceId) (channel : ChannelId) : CacheHeader :=
  ⟨source, channel, Vector.replicate userAreaSize 0⟩

/-- Sets byte `i` of the user's bytes; none if there is no such byte. -/
def setUser? (h : CacheHeader) (i : Nat) (b : UInt8) : Option CacheHeader :=
  if hi : i < userAreaSize then some { h with user := h.user.set i b hi } else none

/-- The identifiers; the user's bytes are left out. -/
def debug (h : CacheHeader) : String :=
  "CacheHeader \x7b source: " ++ Text.applied "SourceId" h.source.text ++ ", channel: "
    ++ Text.applied "ChannelId" h.channel.text ++ ", .. \x7d"

end CacheHeader

/-- The handles of the last burst, of which those before `cursor` have been read. -/
structure ReceiveCache (σ : Type) where
  header : CacheHeader
  source : σ
  buffer : Array UInt64
  /-- Most handles of a burst. -/
  size : Nat
  cursor : Nat
  locality : Locality

namespace ReceiveCache

variable {σ : Type} [BurstSource σ]

/-- A cache without handles. -/
def create (memory : Memory) (source : σ) (header : CacheHeader) (size : UInt64)
    (locality : Locality) : Except SourceError (ReceiveCache σ) :=
  if size = 0 then .error .zeroSize
  else if memory.grants (size.toNat * handleSize) then
    .ok ⟨header, source, #[], size.toNat, 0, locality⟩
  else .error (.outOfMemory size.toNat)

/-! ### Queries -/

/-- Handles of the last burst. -/
def length (c : ReceiveCache σ) : Nat := c.buffer.size

def isEmpty (c : ReceiveCache σ) : Bool := c.buffer.isEmpty

/-- Handles not yet read, in order. -/
def unread (c : ReceiveCache σ) : List UInt64 := c.buffer.toList.drop c.cursor

def remaining (c : ReceiveCache σ) : Nat := c.length - c.cursor

def isExhausted (c : ReceiveCache σ) : Bool := c.cursor == c.length

def debug (c : ReceiveCache σ) : String :=
  Text.record "ReceiveCache"
    [("header", c.header.debug), ("size", toString c.size), ("length", toString c.length),
      ("cursor", toString c.cursor), ("locality", c.locality.debug)]

/-! ### Giving handles back -/

/-- Gives all unread handles back, and tells how many there were. -/
def releaseUnread (c : ReceiveCache σ) : Nat × ReceiveCache σ :=
  (c.remaining,
    { c with source := BurstSource.releaseAll c.unread c.source, cursor := c.length })

/-- Gives all unread handles back and forgets the burst. -/
def discard (c : ReceiveCache σ) : ReceiveCache σ :=
  { c.releaseUnread.2 with buffer := #[], cursor := 0 }

/-- Ends the cache; what is left is its source. -/
def drop (c : ReceiveCache σ) : σ := c.releaseUnread.2.source

/-- Gives all unread handles back, tells how many there were, and ends the cache. -/
def close (c : ReceiveCache σ) : Nat × σ :=
  let (released, c) := c.releaseUnread
  (released, c.drop)

/-! ### Handles in and out -/

/-- What is wrong with a burst of which `written` handles have arrived. -/
def violation? (size written : Nat) : Except SourceError Nat → Option SourceError
  | .error e => some e
  | .ok reported =>
    if size < written then some (.overrun written size)
    else if reported ≠ written then some (.countMismatch reported written)
    else none

/-- Gives unread handles back and pulls another burst: how many handles there are now.  If
anything is wrong with the burst, it is given back as well. -/
def refill (c : ReceiveCache σ) : Except SourceError Nat × ReceiveCache σ :=
  let c := c.discard
  let (burst, source) :=
    BurstSource.receive c.header.source c.header.channel c.length c.size c.source
  let c := { c with source, buffer := c.buffer ++ burst.appended }
  match violation? c.size c.length burst.report with
  | some e => (.error e, c.discard)
  | none => (.ok c.length, c)

/-- The next unread handle, if there is one. -/
def take (c : ReceiveCache σ) : Option UInt64 × ReceiveCache σ :=
  match c.buffer[c.cursor]? with
  | some handle => (some handle, { c with cursor := c.cursor + 1 })
  | none => (none, c)

/-- Forwards as many unread handles into `ring` as it accepts: how many it accepted. -/
def forward (c : ReceiveCache σ) (ring : Ring) :
    Except TransferFault Nat × ReceiveCache σ × Ring :=
  if c.isExhausted then (.ok 0, c, ring)
  else
    match ring.enqueue (c.buffer.extract c.cursor c.length) .burst with
    | (.ok moved, ring) => (.ok moved, { c with cursor := c.cursor + moved }, ring)
    | (.error e, ring) => (.error e, c, ring)

end ReceiveCache

end BurstRing
