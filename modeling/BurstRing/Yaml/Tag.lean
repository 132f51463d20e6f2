/-!
# Tags

A tag is a sequence of bytes.  The per cent signs in a written tag spell bytes, and these need not
make up characters, so a tag need not be a text.  A zero byte ends a tag: what is written after it
does not count.

A tag that begins with an exclamation mark is local.  The rest of it is its name, if that is a
text; the mark alone is its own name.
-/

namespace BurstRing.Yaml

structure Tag where
  bytes : List UInt8
  deriving DecidableEq, Repr

namespace Tag

/-- The tag that `bytes` spell, which ends before the first zero among them. -/
def zeroEnded (bytes : List UInt8) : Tag := ⟨bytes.takeWhile (· != 0)⟩

/-- The bytes of `cs` in UTF-8. -/
def octets (cs : List Char) : List UInt8 := cs.flatMap String.utf8EncodeChar

/-- The tag that reads `s`. -/
def ofText (s : String) : Tag := zeroEnded (octets s.toList)

/-- A tag written as a stem and what follows it. -/
def extend (stem suffix : Tag) : Tag := ⟨stem.bytes ++ suffix.bytes⟩

/-- An exclamation mark. -/
def localMark : UInt8 := 0x21

/-- A tag that the text defines for itself. -/
def isLocal (t : Tag) : Bool := t.bytes.head? == some localMark

/-- The name of a local tag. -/
def name? (t : Tag) : Option String :=
  match t.bytes with
  | [] => none
  | mark :: rest =>
    if mark = localMark then
      String.fromUTF8? ⟨(if rest.isEmpty then t.bytes else rest).toArray⟩
    else none

end Tag

end BurstRing.Yaml
