import BurstRing.Yaml.Token
import BurstRing.Text.Numeral

/-!
# Reading scalars

Plain, quoted and block scalars, from a cursor at their first character.  Inside a scalar that
goes over several lines, one line break reads as a space and several as one less, unless the break
is a separator beyond ASCII; a literal block keeps its breaks.

The loops take fuel; as many units as there are characters left, and one more, are always enough.
-/

namespace BurstRing.Yaml

/-- A scalar that has been read, and where it ended. -/
structure ScalarRead where
  text : List Char
  stop : Mark
  cursor : Cursor
  deriving Repr

/-! ### Folding -/

/-- Blanks between two words of a scalar: those of one line, or the breaks between two lines. -/
inductive Gap where
  | none
  | blanks (spaces : List Char)
  /-- The first break and all others. -/
  | breaks (first others : List Char)
  deriving DecidableEq, Repr

/-- Some line has ended in the gap. -/
def Gap.isBroken : Gap → Bool
  | .breaks _ _ => true
  | _ => false

/-- What a gap reads as. -/
def Gap.text : Gap → List Char
  | .none => []
  | .blanks spaces => spaces
  | .breaks first others =>
    if first.head? = some '\n' then
      if others.isEmpty then [' '] else others
    else first ++ others

/-- Reads a gap on from `gap`.  In a plain scalar a tab may not stand where a line is indented less
than `indent`. -/
def readGap (indent : Option Int) : (fuel : Nat) → Gap → Cursor → Except SyntaxError (Gap × Cursor)
  | 0, gap, c => .ok (gap, c)
  | fuel + 1, gap, c =>
    match c.peek? with
    | none => .ok (gap, c)
    | some ch =>
      if isSpace ch then
        match gap with
        | .breaks _ _ =>
          if ch = '\t' ∧ indent.any ((c.mark.column : Int) < ·) then
            c.fail "found a tab character that violates indentation"
          else readGap indent fuel gap c.skip
        | .none | .blanks _ =>
          let (spaces, c) := c.readWhile isSpace
          readGap indent fuel (.blanks (gap.text ++ spaces)) c
      else if isBreak ch then
        let (text, c) := c.readBreak
        match gap with
        | .breaks first others => readGap indent fuel (.breaks first (others ++ text)) c
        | _ => readGap indent fuel (.breaks text []) c
      else .ok (gap, c)

/-! ### Plain scalars -/

/-- A character that structures flow collections. -/
def isFlowMark (ch : Char) : Bool :=
  ch == ',' || ch == '[' || ch == ']' || ch == '\x7b' || ch == '\x7d'

/-- A plain scalar is over here: a value indicator, or in a flow collection its punctuation. -/
def endsPlain (inFlow : Bool) (c : Cursor) : Bool :=
  (c.isAt ':' && c.isClearAt 1) || (inFlow && c.looksAt isFlowMark)

/-- A colon that touches punctuation in a flow collection. -/
def isStrayColon (inFlow : Bool) (c : Cursor) : Bool :=
  inFlow && c.isAt ':' && (c.ahead? 1).any fun ch => isFlowMark ch || ch == '?'

/-- The characters of a plain scalar up to a blank, a break or its end. -/
def readPlainWord (inFlow : Bool) :
    (fuel : Nat) → Cursor → Except SyntaxError (List Char × Cursor)
  | 0, c => .ok ([], c)
  | fuel + 1, c =>
    if c.isClearAt 0 then .ok ([], c)
    else if isStrayColon inFlow c then c.fail "found unexpected ':'"
    else if endsPlain inFlow c then .ok ([], c)
    else
      match c.peek? with
      | none => .ok ([], c)
      | some ch => do
        let (word, c) ← readPlainWord inFlow fuel c.skip
        .ok (ch :: word, c)

/-- Words and gaps of a plain scalar on from `read`, after the gap `gap`; lines that are indented
less than `indent` do not belong to it.  The flag says that the last gap ended a line. -/
def readPlainFrom (inFlow : Bool) (indent : Int) :
    (fuel : Nat) → ScalarRead → Gap → Except SyntaxError (ScalarRead × Bool)
  | 0, read, gap => .ok (read, gap.isBroken)
  | fuel + 1, read, gap => do
    let c := read.cursor
    if c.isAtAnyBoundary || c.isAt '#' then .ok (read, gap.isBroken)
    else
      let (word, after) ← readPlainWord inFlow fuel c
      let (read, gap) : ScalarRead × Gap :=
        if word.isEmpty then ({ read with cursor := after }, gap)
        else (⟨read.text ++ gap.text ++ word, after.mark, after⟩, .none)
      if !(after.looksAt fun ch => isSpace ch || isBreak ch) then .ok (read, gap.isBroken)
      else
        let (gap, after) ← readGap (some indent) fuel gap after
        let read := { read with cursor := after }
        if !inFlow && (after.mark.column : Int) < indent then .ok (read, gap.isBroken)
        else readPlainFrom inFlow indent fuel read gap

/-- A plain scalar; the flag says that a line has ended after it. -/
def readPlain (fuel : Nat) (inFlow : Bool) (indent : Int) (c : Cursor) :
    Except SyntaxError (ScalarRead × Bool) :=
  readPlainFrom inFlow indent fuel ⟨[], c.mark, c⟩ .none

/-! ### Quoted scalars -/

/-- What a letter after a backslash stands for. -/
def escaped? : Char → Option Char
  | '0' => some '\x00'
  | 'a' => some '\x07'
  | 'b' => some '\x08'
  | 't' | '\t' => some '\t'
  | 'n' => some '\n'
  | 'v' => some '\x0b'
  | 'f' => some '\x0c'
  | 'r' => some '\r'
  | 'e' => some '\x1b'
  | ' ' => some ' '
  | '"' => some '"'
  | '/' => some '/'
  | '\\' => some '\\'
  | 'N' => some '\x85'
  | '_' => some '\xa0'
  | 'L' => some '\u2028'
  | 'P' => some '\u2029'
  | _ => none

/-- How many hexadecimal digits follow a letter after a backslash. -/
def codeLength? : Char → Option Nat
  | 'x' => some 2
  | 'u' => some 4
  | 'U' => some 8
  | _ => none

/-- The character of that number, unless it is a surrogate or too large. -/
def charOfCode? (n : Nat) : Option Char := if n.isValidChar then some (Char.ofNat n) else none

/-- The character after a backslash, the cursor being at the backslash. -/
def readEscape (start : Mark) (c : Cursor) : Except SyntaxError (Char × Cursor) :=
  match c.ahead? 1 with
  | none => .error ⟨"found unknown escape character", start⟩
  | some letter =>
    match escaped? letter, codeLength? letter with
    | some ch, _ => .ok (ch, c.skipMany 2)
    | none, none => .error ⟨"found unknown escape character", start⟩
    | none, some n =>
      let c := c.skipMany 2
      let digits := c.rest.take n
      match digits.mapM (Text.digitValue? 16) with
      | none => .error ⟨"did not find expected hexdecimal number", start⟩
      | some values =>
        if values.length < n then .error ⟨"did not find expected hexdecimal number", start⟩
        else
          match charOfCode? (values.foldl (fun code d => code * 16 + d) 0) with
          | none => .error ⟨"found invalid Unicode character escape code", start⟩
          | some ch => .ok (ch, c.skipMany n)

/-- The characters of a quoted scalar up to a blank, a break or the closing quote.  The flag says
that an escaped break was passed last, which reads as nothing. -/
def readQuotedWord (quote : Char) (start : Mark) :
    (fuel : Nat) → Cursor → Except SyntaxError (List Char × Bool × Cursor)
  | 0, c => .ok ([], false, c)
  | fuel + 1, c =>
    let isDouble := quote == '"'
    let goOn (ch : Char) (c : Cursor) : Except SyntaxError (List Char × Bool × Cursor) := do
      let (word, joined, c) ← readQuotedWord quote start fuel c
      .ok (ch :: word, joined, c)
    if c.isClearAt 0 then .ok ([], false, c)
    else if !isDouble && c.isAt quote && c.ahead? 1 == some quote then goOn quote (c.skipMany 2)
    else if c.isAt quote then .ok ([], false, c)
    else if isDouble && c.isAt '\\' then
      if (c.ahead? 1).any isBreak then .ok ([], true, c.skip.skipBreak)
      else
        match readEscape start c with
        | .error e => .error e
        | .ok (ch, c) => goOn ch c
    else
      match c.peek? with
      | none => .ok ([], false, c)
      | some ch => goOn ch c.skip

/-- Words and gaps of a quoted scalar on from `text`, up to and with the closing quote. -/
def readQuotedFrom (quote : Char) (start : Mark) :
    (fuel : Nat) → List Char → Cursor → Except SyntaxError ScalarRead
  | 0, _, c => c.fail "found unexpected end of stream"
  | fuel + 1, text, c => do
    if c.isAtAnyBoundary then .error ⟨"found unexpected document indicator", start⟩
    else if c.isAtEnd then .error ⟨"found unexpected end of stream", start⟩
    else
      let (word, joined, c) ← readQuotedWord quote start fuel c
      let text := text ++ word
      if c.isAt quote then
        let c := c.skip
        .ok ⟨text, c.mark, c⟩
      else
        let gap : Gap := if joined then .breaks [] [] else .none
        let (gap, c) ← readGap none fuel gap c
        readQuotedFrom quote start fuel (text ++ gap.text) c

/-- A quoted scalar, the cursor being at the opening quote. -/
def readQuoted (fuel : Nat) (quote : Char) (c : Cursor) : Except SyntaxError ScalarRead :=
  readQuotedFrom quote c.mark fuel [] c.skip

/-! ### Block scalars -/

/-- What becomes of the breaks at the end of a block. -/
inductive Chomping where
  | strip
  | clip
  | keep
  deriving DecidableEq, Repr

/-- A chomping indicator, if there is one. -/
def readChomping (c : Cursor) : Option Chomping × Cursor :=
  match c.peek? with
  | some '+' => (some .keep, c.skip)
  | some '-' => (some .strip, c.skip)
  | _ => (none, c)

/-- An indentation indicator, if there is one. -/
def readIncrement (start : Mark) (c : Cursor) : Except SyntaxError (Option Nat × Cursor) :=
  match c.peek? with
  | some ch =>
    if ch = '0' then .error ⟨"found an indentation indicator equal to 0", start⟩
    else if ch.isDigit then .ok (some (ch.toNat - '0'.toNat), c.skip)
    else .ok (none, c)
  | none => .ok (none, c)

/-- Both indicators of a block's header, in either order. -/
def readHeader (start : Mark) (c : Cursor) :
    Except SyntaxError (Chomping × Option Nat × Cursor) := do
  match readChomping c with
  | (some chomping, c) => do
    let (increment, c) ← readIncrement start c
    .ok (chomping, increment, c)
  | (none, c) => do
    let (increment, c) ← readIncrement start c
    match increment with
    | none => .ok (.clip, none, c)
    | some _ =>
      let (chomping, c) := readChomping c
      .ok (chomping.getD .clip, increment, c)

/-- Passes spaces, at most `n` of them. -/
def skipIndent : (n : Nat) → Cursor → Cursor
  | 0, c => c
  | n + 1, c => if c.isAt ' ' then skipIndent n c.skip else c

/-- Empty lines at the start of a block or within it: the breaks, where the last one ended, and
the widest indentation seen.  `indent` is the indentation to skip at most; without it all is
skipped. -/
def readEmptyLines (start : Mark) (indent : Option Nat) :
    (fuel : Nat) → List Char → Mark → (widest : Nat) → Cursor →
      Except SyntaxError (List Char × Mark × Nat × Cursor)
  | 0, breaks, stop, widest, c => .ok (breaks, stop, widest, c)
  | fuel + 1, breaks, stop, widest, c =>
    let c := match indent with
      | none => c.skipWhile (· == ' ')
      | some n => skipIndent (n - c.mark.column) c
    let widest := max widest c.mark.column
    if c.isAt '\t' && indent.all (c.mark.column < ·) then
      .error ⟨"found a tab character where an indentation space is expected", start⟩
    else if c.looksAt isBreak then
      let (text, c) := c.readBreak
      readEmptyLines start indent fuel (breaks ++ text) c.mark widest c
    else .ok (breaks, stop, widest, c)

/-- A block under way: its text, the break after its last line, the empty lines after that. -/
structure BlockRead where
  text : List Char
  lastBreak : List Char
  emptyLines : List Char
  /-- The last line began with a blank. -/
  blank : Bool
  stop : Mark
  cursor : Cursor
  deriving Repr

/-- The text before another line, which begins with a blank or not.  A folded block joins the two
lines unless one of them begins with a blank. -/
def BlockRead.join (folds blank : Bool) (b : BlockRead) : List Char :=
  if folds && b.lastBreak.head? == some '\n' && !b.blank && !blank then
    b.text ++ (if b.emptyLines.isEmpty then [' '] else b.emptyLines)
  else b.text ++ b.lastBreak ++ b.emptyLines

/-- Lines of a block on from `b`, all indented by `indent`. -/
def readBlockLines (start : Mark) (folds : Bool) (indent : Nat) :
    (fuel : Nat) → BlockRead → Except SyntaxError BlockRead
  | 0, b => .ok b
  | fuel + 1, b => do
    let c := b.cursor
    if c.mark.column = indent ∧ !c.isAtEnd then
      let blank := c.looksAt isSpace
      let (line, c) := c.readWhile fun ch => !isBreak ch
      let text := b.join folds blank ++ line
      let (lastBreak, c) := c.readBreak
      let (emptyLines, stop, _, c) ←
        readEmptyLines start (some indent) fuel [] c.mark 0 c
      readBlockLines start folds indent fuel ⟨text, lastBreak, emptyLines, blank, stop, c⟩
    else .ok b

/-- The text of a whole block. -/
def BlockRead.chomp (chomping : Chomping) (b : BlockRead) : List Char :=
  match chomping with
  | .strip => b.text
  | .clip => b.text ++ b.lastBreak
  | .keep => b.text ++ b.lastBreak ++ b.emptyLines

/-- A block scalar, the cursor being at its indicator; `indent` is the indentation around it. -/
def readBlock (fuel : Nat) (folds : Bool) (indent : Int) (c : Cursor) :
    Except SyntaxError ScalarRead := do
  let start := c.mark
  let (chomping, increment, c) ← readHeader start c.skip
  let c ← c.finishLine
  let fixed := increment.map fun n => if 0 ≤ indent then indent.toNat + n else n
  let (emptyLines, stop, widest, c) ←
    readEmptyLines start fixed fuel [] c.mark 0 c
  let width := fixed.getD (max (max widest (indent + 1).toNat) 1)
  let b ← readBlockLines start folds width fuel
    ⟨[], [], emptyLines, false, stop, c⟩
  .ok ⟨b.chomp chomping, b.stop, b.cursor⟩

end BurstRing.Yaml
