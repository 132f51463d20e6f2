/-!
# Reading a text with marks

A cursor is the characters still to be read, with the mark where they start: line and column,
counted from zero in characters, and the number of bytes before it in UTF-8.  Every skip moves the
mark along.  A line
ends with a line feed, a carriage return, both in this order, or one of three separators beyond
ASCII.
-/

namespace BurstRing.Yaml

/-- A place in a text. -/
structure Mark where
  /-- Bytes before the place. -/
  index : Nat
  line : Nat
  column : Nat
  deriving DecidableEq, Repr, Inhabited

/-- The start of a text. -/
def Mark.origin : Mark := ⟨0, 0, 0⟩

/-- A place in words, counted from one, to put after a message; the start of a text goes without
saying. -/
def Mark.suffix (m : Mark) : String :=
  if m.line = 0 ∧ m.column = 0 then "" else s!" at line {m.line + 1} column {m.column + 1}"

/-- A text that breaks the rules of YAML. -/
structure SyntaxError where
  problem : String
  mark : Mark
  deriving DecidableEq, Repr

def SyntaxError.message (e : SyntaxError) : String := e.problem ++ e.mark.suffix

/-! ### Classes of characters -/

/-- A character that ends a line. -/
def isBreak (c : Char) : Bool :=
  c == '\n' || c == '\r' || c == '\x85' || c == '\u2028' || c == '\u2029'

/-- A space or a tab. -/
def isSpace (c : Char) : Bool := c == ' ' || c == '\t'

/-- A character of a handle, an anchor or a directive. -/
def isWordChar (c : Char) : Bool := c.isAlphanum || c == '_' || c == '-'

/-- The mark that some texts begin with. -/
def byteOrderMark : Char := '\ufeff'

/-- A character that may stand in a text at all. -/
def isAllowed (c : Char) : Bool :=
  let n := c.toNat
  n == 0x09 || n == 0x0A || n == 0x0D || (0x20 ≤ n && n ≤ 0x7E) || n == 0x85
    || (0xA0 ≤ n && n ≤ 0xD7FF) || (0xE000 ≤ n && n ≤ 0xFFFD) || 0x10000 ≤ n

/-! ### Cursors -/

structure Cursor where
  rest : List Char
  mark : Mark
  deriving Repr

namespace Cursor

/-- The next character; none at the end. -/
def peek? (c : Cursor) : Option Char := c.rest.head?

/-- The character after `i` others; none beyond the end. -/
def ahead? (c : Cursor) (i : Nat) : Option Char := c.rest[i]?

/-- The next character is `ch`. -/
def isAt (c : Cursor) (ch : Char) : Bool := c.peek? == some ch

def isAtEnd (c : Cursor) : Bool := c.rest.isEmpty

/-- The next character satisfies `p`. -/
def looksAt (c : Cursor) (p : Char → Bool) : Bool := c.peek?.any p

/-- The line ends here, or the text does. -/
def isAtLineEnd (c : Cursor) : Bool := c.peek?.all isBreak

/-- A blank, the end of the line or the end of the text follows `i` characters. -/
def isClearAt (c : Cursor) (i : Nat) : Bool :=
  (c.ahead? i).all fun ch => isSpace ch || isBreak ch

/-- Passes one character of a line. -/
def skip (c : Cursor) : Cursor :=
  match c.rest with
  | [] => c
  | ch :: rest => ⟨rest, ⟨c.mark.index + ch.utf8Size, c.mark.line, c.mark.column + 1⟩⟩

/-- Passes `n` characters of a line. -/
def skipMany : Nat → Cursor → Cursor
  | 0, c => c
  | n + 1, c => skipMany n c.skip

/-- Passes the end of a line and tells how it reads: the separators beyond ASCII as they are, any
other as a line feed. -/
def readBreak (c : Cursor) : List Char × Cursor :=
  let next (n : Nat) (rest : List Char) : Cursor := ⟨rest, ⟨c.mark.index + n, c.mark.line + 1, 0⟩⟩
  match c.rest with
  | '\r' :: '\n' :: rest => (['\n'], next 2 rest)
  | '\r' :: rest | '\n' :: rest => (['\n'], next 1 rest)
  | '\x85' :: rest => (['\n'], next 2 rest)
  | ch :: rest => if isBreak ch then ([ch], next ch.utf8Size rest) else ([], c)
  | [] => ([], c)

/-- Passes the end of a line. -/
def skipBreak (c : Cursor) : Cursor := c.readBreak.2

/-- Bytes of `cs` in UTF-8. -/
def byteLength (cs : List Char) : Nat := cs.foldl (fun n ch => n + ch.utf8Size) 0

/-- The characters while they satisfy `p`, and what follows them; the end of a line must not. -/
def readWhile (p : Char → Bool) (c : Cursor) : List Char × Cursor :=
  let run := c.rest.takeWhile p
  (run, ⟨c.rest.dropWhile p,
    ⟨c.mark.index + byteLength run, c.mark.line, c.mark.column + run.length⟩⟩)

def skipWhile (p : Char → Bool) (c : Cursor) : Cursor := (c.readWhile p).2

/-- Passes blanks. -/
def skipSpaces (c : Cursor) : Cursor := c.skipWhile isSpace

/-- Passes a comment, up to the end of the line. -/
def skipComment (c : Cursor) : Cursor :=
  if c.isAt '#' then c.skipWhile fun ch => !isBreak ch else c

/-- A document begins or ends here: three of `ch` at the start of a line, and a blank. -/
def isAtBoundary (c : Cursor) (ch : Char) : Bool :=
  c.mark.column == 0 && c.rest.take 3 == [ch, ch, ch] && c.isClearAt 3

/-- Some boundary between documents is here. -/
def isAtAnyBoundary (c : Cursor) : Bool := c.isAtBoundary '-' || c.isAtBoundary '.'

def fail {α : Type} (c : Cursor) (problem : String) : Except SyntaxError α :=
  .error ⟨problem, c.mark⟩

/-- Passes what may follow on a line whose content is over: blanks, a comment, the line's end. -/
def finishLine (c : Cursor) : Except SyntaxError Cursor :=
  let c := c.skipSpaces.skipComment
  if c.isAtLineEnd then .ok c.skipBreak
  else c.fail "did not find expected comment or line break"

end Cursor

end BurstRing.Yaml
