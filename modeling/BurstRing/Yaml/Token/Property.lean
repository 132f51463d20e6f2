import BurstRing.Yaml.Token
import BurstRing.Text.Numeral

/-!
# Reading anchors, tags and directives

What may stand before a node or before a document, from a cursor at its first character.
-/

namespace BurstRing.Yaml

/-! ### Anchors and aliases -/

/-- A character that may follow an anchor, blanks apart. -/
def endsAnchor (ch : Char) : Bool :=
  ch == '?' || ch == ':' || ch == ',' || ch == ']' || ch == '\x7d' || ch == '%' || ch == '@'
    || ch == '\x60'

/-- The name of an anchor or an alias, after its indicator. -/
def readAnchor (c : Cursor) : Except SyntaxError (String × Cursor) :=
  let start := c.mark
  let (name, c) := c.skip.readWhile isWordChar
  if name.isEmpty || !(c.isClearAt 0 || c.looksAt endsAnchor) then
    .error ⟨"did not find expected alphabetic or numeric character", start⟩
  else .ok (String.ofList name, c)

/-! ### Tags -/

/-- A character of a tag; a verbatim one may hold three more. -/
def isTagChar (verbatim : Bool) (ch : Char) : Bool :=
  isWordChar ch || ";/?:@&=+$.%!~*'()".toList.contains ch
    || (verbatim && (ch == ',' || ch == '[' || ch == ']'))

/-- A byte spelled by a per cent sign and two hexadecimal digits. -/
def readOctet (start : Mark) (c : Cursor) : Except SyntaxError (UInt8 × Cursor) :=
  match c.rest with
  | '%' :: a :: b :: _ =>
    match Text.digitValue? 16 a, Text.digitValue? 16 b with
    | some a, some b => .ok ((a * 16 + b).toUInt8, c.skipMany 3)
    | _, _ => .error ⟨"did not find URI escaped octet", start⟩
  | _ => .error ⟨"did not find URI escaped octet", start⟩

/-- How many bytes have to follow one that starts a character. -/
def trailingCount? (octet : UInt8) : Option Nat :=
  if octet < 0x80 then some 0
  else if octet < 0xC0 then none
  else if octet < 0xE0 then some 1
  else if octet < 0xF0 then some 2
  else if octet < 0xF8 then some 3
  else none

/-- The bytes of a character that follow its first one. -/
def readTrailing (start : Mark) : Nat → Cursor → Except SyntaxError (List UInt8 × Cursor)
  | 0, c => .ok ([], c)
  | n + 1, c => do
    let (octet, c) ← readOctet start c
    if 0x80 ≤ octet ∧ octet < 0xC0 then do
      let (rest, c) ← readTrailing start n c
      .ok (octet :: rest, c)
    else .error ⟨"found an incorrect trailing UTF-8 octet", start⟩

/-- A character spelled by its bytes.  Only their number and their high bits are looked at, so they
may be those of no character. -/
def readSpelled (start : Mark) (c : Cursor) : Except SyntaxError (List UInt8 × Cursor) := do
  let (octet, c) ← readOctet start c
  match trailingCount? octet with
  | none => .error ⟨"found an incorrect leading UTF-8 octet", start⟩
  | some n =>
    let (rest, c) ← readTrailing start n c
    .ok (octet :: rest, c)

/-- The characters of a tag, as bytes. -/
def readTagBytes (verbatim : Bool) (start : Mark) :
    (fuel : Nat) → Cursor → Except SyntaxError (List UInt8 × Cursor)
  | 0, c => .ok ([], c)
  | fuel + 1, c =>
    match c.peek? with
    | none => .ok ([], c)
    | some ch =>
      if isTagChar verbatim ch then do
        let (bytes, c) ← if ch = '%' then readSpelled start c else .ok (Tag.octets [ch], c.skip)
        let (rest, c) ← readTagBytes verbatim start fuel c
        .ok (bytes ++ rest, c)
      else .ok ([], c)

/-- The characters of a tag, of which there is one at least. -/
def readTagText (fuel : Nat) (verbatim : Bool) (start : Mark) (c : Cursor) :
    Except SyntaxError (Tag × Cursor) := do
  let (bytes, c) ← readTagBytes verbatim start fuel c
  if bytes.isEmpty then .error ⟨"did not find expected tag URI", start⟩
  else .ok (.zeroEnded bytes, c)

/-- A handle: an exclamation mark, word characters, and perhaps another exclamation mark. -/
def readHandle (c : Cursor) : List Char × Cursor :=
  let (word, c) := c.skip.readWhile isWordChar
  if c.isAt '!' then ('!' :: word ++ ['!'], c.skip) else ('!' :: word, c)

/-- A tag as handle and suffix.  A verbatim tag has no handle, and neither has the tag that is an
exclamation mark alone. -/
def readTag (fuel : Nat) (inFlow : Bool) (c : Cursor) :
    Except SyntaxError (String × Tag × Cursor) := do
  let start := c.mark
  let (handle, suffix, c) ←
    if c.ahead? 1 = some '<' then do
      let (text, c) ← readTagText fuel true start (c.skipMany 2)
      if c.isAt '>' then .ok ("", text, c.skip)
      else .error ⟨"did not find the expected '>'", start⟩
    else
      match readHandle c with
      | (handle, c) =>
        if handle.length > 1 ∧ handle.getLast? = some '!' then do
          let (suffix, c) ← readTagText fuel false start c
          .ok (String.ofList handle, suffix, c)
        else do
          let (more, c) ← readTagBytes false start fuel c
          let suffix := Tag.zeroEnded (Tag.octets (handle.drop 1) ++ more)
          if suffix.bytes.isEmpty then .ok ("", .ofText "!", c) else .ok ("!", suffix, c)
  if c.isClearAt 0 || (inFlow && c.isAt ',') then .ok (handle, suffix, c)
  else .error ⟨"did not find expected whitespace or line break", start⟩

/-! ### Directives -/

/-- Most digits of a version number. -/
def maxVersionDigits : Nat := 9

/-- A number in the version of a directive. -/
def readVersionNumber (start : Mark) (c : Cursor) : Except SyntaxError (Nat × Cursor) :=
  let (digits, c) := c.readWhile Char.isDigit
  if maxVersionDigits < digits.length then
    .error ⟨"found extremely long version number", start⟩
  else if digits.isEmpty then .error ⟨"did not find expected version number", start⟩
  else .ok (Nat.ofDigitChars 10 digits 0, c)

/-- The version of a directive. -/
def readVersion (start : Mark) (c : Cursor) : Except SyntaxError (TokenKind × Cursor) := do
  let (major, c) ← readVersionNumber start c.skipSpaces
  if c.isAt '.' then do
    let (minor, c) ← readVersionNumber start c.skip
    .ok (.versionDirective major minor, c)
  else .error ⟨"did not find expected digit or '.' character", start⟩

/-- The handle of a directive and what it stands for. -/
def readTagDirective (fuel : Nat) (start : Mark) (c : Cursor) :
    Except SyntaxError (TokenKind × Cursor) := do
  let c := c.skipSpaces
  if !c.isAt '!' then .error ⟨"did not find expected '!'", start⟩
  else
    let (handle, c) := readHandle c
    if handle.length > 1 ∧ handle.getLast? ≠ some '!' then
      .error ⟨"did not find expected '!'", start⟩
    else if !(c.looksAt isSpace) then .error ⟨"did not find expected whitespace", start⟩
    else do
      let (stem, c) ← readTagText fuel true start c.skipSpaces
      if c.isClearAt 0 then
        .ok (.tagDirective (String.ofList handle) stem, c)
      else .error ⟨"did not find expected whitespace or line break", start⟩

/-- A directive, the cursor being at its per cent sign, up to the end of its line. -/
def readDirective (fuel : Nat) (c : Cursor) : Except SyntaxError (Token × Cursor) := do
  let start := c.mark
  let (name, c) := c.skip.readWhile isWordChar
  if name.isEmpty then .error ⟨"could not find expected directive name", start⟩
  else if !c.isClearAt 0 then .error ⟨"found unexpected non-alphabetical character", start⟩
  else
    let (kind, c) ←
      if name = ['Y', 'A', 'M', 'L'] then readVersion start c
      else if name = ['T', 'A', 'G'] then readTagDirective fuel start c
      else .error ⟨"found unknown directive name", start⟩
    let after ← c.finishLine
    .ok (⟨kind, start, c.mark⟩, after)

end BurstRing.Yaml
