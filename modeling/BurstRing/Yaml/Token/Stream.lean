import BurstRing.Yaml.Token.Scalar
import BurstRing.Yaml.Token.Property

/-!
# The tokens of a text

A lexer goes through a text and queues tokens.  Two things are known only late.  Indentation that
decreases ends blocks, so one place in the text may give several tokens.  And a node turns out to
be a key when the value indicator after it is seen: then a key token, and perhaps the start of a
mapping, goes in front of tokens that are queued already.  So a token leaves the queue only once
nothing can come before it any more, which is when the place is no candidate for a key: a key
stays on one line and is at most 1024 bytes long.

A text is taken in portions, and a portion is checked for characters that may not stand in a text
when the first character of it is wanted.  Where that fails the text counts as broken off there.

`tokens` gives all tokens up to the end of the text or up to the first error.  A token that is
still queued when the error shows is not given.
-/

namespace BurstRing.Yaml

/-- Most bytes from the start of a key to its value indicator. -/
def maxKeyLength : Nat := 1024

/-- A place where a key may have started. -/
structure KeyCandidate where
  /-- Nothing but a key can stand there. -/
  required : Bool
  /-- Number of the token there, counted from the start of the text. -/
  number : Nat
  mark : Mark
  deriving DecidableEq, Repr

/-- A text under way.  The candidates are those of the flow collections that are open, innermost
first, and of the block around them. -/
structure Lexer where
  cursor : Cursor
  queue : List Token
  /-- Tokens that have left the queue. -/
  taken : Nat
  indent : Int
  indents : List Int
  keys : List (Option KeyCandidate)
  keyAllowed : Bool
  ended : Bool
  /-- Why there are no more characters after the last one, if the text does not end there. -/
  interruption : Option SyntaxError
  /-- At least as much as there are characters left, and one more. -/
  fuel : Nat

namespace Lexer

def ofText (text : List Char) (interruption : Option SyntaxError) : Lexer where
  cursor := ⟨text, .origin⟩
  queue := []
  taken := 0
  indent := -1
  indents := []
  keys := [none]
  keyAllowed := true
  ended := false
  interruption
  fuel := text.length + 1

/-- Inside some flow collection. -/
def inFlow (l : Lexer) : Bool := 1 < l.keys.length

def mark (l : Lexer) : Mark := l.cursor.mark

def push (t : Token) (l : Lexer) : Lexer := { l with queue := l.queue ++ [t] }

/-- Queues a token that takes up no characters. -/
def pushEmpty (kind : TokenKind) (l : Lexer) : Lexer := l.push ⟨kind, l.mark, l.mark⟩

/-- Puts a token in front of the one of number `number`. -/
def insert (number : Nat) (t : Token) (l : Lexer) : Lexer :=
  let i := number - l.taken
  { l with queue := l.queue.take i ++ t :: l.queue.drop i }

/-- Passes `n` characters as one token. -/
def pushChars (kind : TokenKind) (n : Nat) (l : Lexer) : Lexer :=
  let c := l.cursor.skipMany n
  { l with cursor := c }.push ⟨kind, l.mark, c.mark⟩

/-! ### Blocks -/

/-- Ends the blocks among `indents` that are indented more than `column`. -/
def closeBlocks (column : Int) : List Int → Lexer → Lexer
  | indents, l =>
    if l.indent ≤ column then { l with indents }
    else
      match indents with
      | [] => { l with indents := [], indent := -1 }
      | outer :: rest => closeBlocks column rest ({ l with indent := outer }.pushEmpty .blockEnd)

/-- Ends the blocks that are indented more than `column`. -/
def dedent (column : Int) (l : Lexer) : Lexer :=
  if l.inFlow then l else closeBlocks column l.indents l

/-- Starts a block at `column`, if that is further in, with a token put before number `number`. -/
def indentTo (column : Nat) (number : Option Nat) (kind : TokenKind) (mark : Mark) (l : Lexer) :
    Lexer :=
  if l.inFlow || (column : Int) ≤ l.indent then l
  else
    let l := { l with indents := l.indent :: l.indents, indent := column }
    match number with
    | none => l.push ⟨kind, mark, mark⟩
    | some n => l.insert n ⟨kind, mark, mark⟩

/-! ### Candidates -/

/-- A candidate that can no longer be a key. -/
def isStale (now : Mark) (k : KeyCandidate) : Bool :=
  k.mark.line < now.line || k.mark.index + maxKeyLength < now.index

def noValueIndicator {α : Type} (k : KeyCandidate) : Except SyntaxError α :=
  .error ⟨"could not find expected ':'", k.mark⟩

/-- Forgets the candidates that can no longer be keys. -/
def dropStale (l : Lexer) : Except SyntaxError Lexer :=
  if l.keys.any (·.any (isStale l.mark)) then do
    let keys ← l.keys.mapM fun
      | none => .ok none
      | some k =>
        if isStale l.mark k then
          if k.required then noValueIndicator k else .ok none
        else .ok (some k)
    .ok { l with keys }
  else .ok l

/-- Forgets the candidate of the innermost collection. -/
def removeKey (l : Lexer) : Except SyntaxError Lexer :=
  match l.keys with
  | some k :: rest =>
    if k.required then noValueIndicator k else .ok { l with keys := none :: rest }
  | _ => .ok l

/-- Takes the place as a candidate, if keys are allowed here. -/
def saveKey (l : Lexer) : Except SyntaxError Lexer :=
  if l.keyAllowed then do
    let required := !l.inFlow && l.indent == (l.mark.column : Int)
    let k : KeyCandidate := ⟨required, l.taken + l.queue.length, l.mark⟩
    let l ← l.removeKey
    .ok { l with keys := some k :: l.keys.tail }
  else .ok l

/-! ### One token -/

/-- Passes blanks, comments and breaks.  A tab may not stand where a key could start a line. -/
def skipToToken : (fuel : Nat) → Lexer → Lexer
  | 0, l => l
  | fuel + 1, l =>
    let c := l.cursor
    let c := if c.mark.column = 0 ∧ c.isAt byteOrderMark then c.skip else c
    let tabs := l.inFlow || !l.keyAllowed
    let c := c.skipWhile fun ch => ch == ' ' || (tabs && ch == '\t')
    let c := c.skipComment
    if c.looksAt isBreak then
      skipToToken fuel { l with cursor := c.skipBreak, keyAllowed := l.keyAllowed || !l.inFlow }
    else { l with cursor := c }

/-- The end of the text. -/
def fetchEnd (l : Lexer) : Except SyntaxError Lexer := do
  let m := l.mark
  let m := if m.column = 0 then m else ⟨m.index, m.line + 1, 0⟩
  let l := { l with cursor := ⟨[], m⟩ }.dedent (-1)
  let l ← l.removeKey
  .ok ({ l with keyAllowed := false, ended := true }.pushEmpty .streamEnd)

def fetchDirective (l : Lexer) : Except SyntaxError Lexer := do
  let l ← (l.dedent (-1)).removeKey
  let (t, c) ← readDirective l.fuel l.cursor
  .ok ({ l with cursor := c, keyAllowed := false }.push t)

/-- The start or the end of a document. -/
def fetchBoundary (kind : TokenKind) (l : Lexer) : Except SyntaxError Lexer := do
  let l ← (l.dedent (-1)).removeKey
  .ok ({ l with keyAllowed := false }.pushChars kind 3)

def fetchFlowStart (kind : TokenKind) (l : Lexer) : Except SyntaxError Lexer := do
  let l ← l.saveKey
  .ok ({ l with keys := none :: l.keys, keyAllowed := true }.pushChars kind 1)

def fetchFlowEnd (kind : TokenKind) (l : Lexer) : Except SyntaxError Lexer := do
  let l ← l.removeKey
  let keys := match l.keys with
    | _ :: outer :: rest => outer :: rest
    | keys => keys
  .ok ({ l with keys, keyAllowed := false }.pushChars kind 1)

def fetchFlowEntry (l : Lexer) : Except SyntaxError Lexer := do
  let l ← l.removeKey
  .ok ({ l with keyAllowed := true }.pushChars .flowEntry 1)

def fetchBlockEntry (l : Lexer) : Except SyntaxError Lexer := do
  if !l.inFlow && !l.keyAllowed then
    l.cursor.fail "block sequence entries are not allowed in this context"
  else
    let l ← (l.indentTo l.mark.column none .blockSequenceStart l.mark).removeKey
    .ok ({ l with keyAllowed := true }.pushChars .blockEntry 1)

def fetchKey (l : Lexer) : Except SyntaxError Lexer := do
  if !l.inFlow && !l.keyAllowed then
    l.cursor.fail "mapping keys are not allowed in this context"
  else
    let l ← (l.indentTo l.mark.column none .blockMappingStart l.mark).removeKey
    .ok ({ l with keyAllowed := !l.inFlow }.pushChars .key 1)

/-- The value indicator; what the candidate names was a key then. -/
def fetchValue (l : Lexer) : Except SyntaxError Lexer :=
  match l.keys with
  | some k :: rest =>
    let l := l.insert k.number ⟨.key, k.mark, k.mark⟩
    let l := l.indentTo k.mark.column (some k.number) .blockMappingStart k.mark
    .ok ({ l with keys := none :: rest, keyAllowed := false }.pushChars .value 1)
  | _ =>
    if !l.inFlow && !l.keyAllowed then
      l.cursor.fail "mapping values are not allowed in this context"
    else
      let l := l.indentTo l.mark.column none .blockMappingStart l.mark
      .ok ({ l with keyAllowed := !l.inFlow }.pushChars .value 1)

def fetchAnchor (kind : String → TokenKind) (l : Lexer) : Except SyntaxError Lexer := do
  let l ← l.saveKey
  let start := l.mark
  let (name, c) ← readAnchor l.cursor
  .ok ({ l with cursor := c, keyAllowed := false }.push ⟨kind name, start, c.mark⟩)

def fetchTag (l : Lexer) : Except SyntaxError Lexer := do
  let l ← l.saveKey
  let start := l.mark
  let (handle, suffix, c) ← readTag l.fuel l.inFlow l.cursor
  .ok ({ l with cursor := c, keyAllowed := false }.push ⟨.tag handle suffix, start, c.mark⟩)

def pushScalar (style : ScalarStyle) (start : Mark) (read : ScalarRead) (l : Lexer) : Lexer :=
  { l with cursor := read.cursor }.push
    ⟨.scalar (String.ofList read.text) style, start, read.stop⟩

def fetchBlockScalar (style : ScalarStyle) (l : Lexer) : Except SyntaxError Lexer := do
  let l ← l.removeKey
  let read ← readBlock l.fuel (style == .folded) l.indent l.cursor
  .ok ({ l with keyAllowed := true }.pushScalar style l.mark read)

def fetchQuoted (quote : Char) (style : ScalarStyle) (l : Lexer) : Except SyntaxError Lexer := do
  let l ← l.saveKey
  let read ← readQuoted l.fuel quote l.cursor
  .ok ({ l with keyAllowed := false }.pushScalar style l.mark read)

def fetchPlain (l : Lexer) : Except SyntaxError Lexer := do
  let l ← l.saveKey
  let (read, broken) ← readPlain l.fuel l.inFlow (l.indent + 1) l.cursor
  .ok ({ l with keyAllowed := broken }.pushScalar .plain l.mark read)

/-- A character that cannot start a plain scalar, whatever follows it. -/
def isIndicator (ch : Char) : Bool := "-?:,[]\x7b\x7d#&*!|>'\"%@\x60".toList.contains ch

/-- A plain scalar may start here: no indicator, or one that does not work as such. -/
def startsPlain (l : Lexer) : Bool :=
  let c := l.cursor
  if c.isAt '-' then !((c.ahead? 1).any isSpace)
  else if c.isAt '?' || c.isAt ':' then !l.inFlow && !c.isClearAt 1
  else !(c.looksAt isIndicator) && !c.isClearAt 0

/-- Queues what the next characters stand for. -/
def fetchHere (l : Lexer) : Except SyntaxError Lexer :=
  let c := l.cursor
  match c.peek? with
  | none => l.fetchEnd
  | some ch =>
    if c.mark.column = 0 ∧ ch = '%' then l.fetchDirective
    else if c.isAtBoundary '-' then l.fetchBoundary .documentStart
    else if c.isAtBoundary '.' then l.fetchBoundary .documentEnd
    else if ch = '[' then l.fetchFlowStart .flowSequenceStart
    else if ch = '\x7b' then l.fetchFlowStart .flowMappingStart
    else if ch = ']' then l.fetchFlowEnd .flowSequenceEnd
    else if ch = '\x7d' then l.fetchFlowEnd .flowMappingEnd
    else if ch = ',' then l.fetchFlowEntry
    else if ch = '-' ∧ c.isClearAt 1 then l.fetchBlockEntry
    else if ch = '?' ∧ (l.inFlow || c.isClearAt 1) then l.fetchKey
    else if ch = ':' ∧ (l.inFlow || c.isClearAt 1) then l.fetchValue
    else if ch = '*' then l.fetchAnchor .alias
    else if ch = '&' then l.fetchAnchor .anchor
    else if ch = '!' then l.fetchTag
    else if ch = '|' ∧ !l.inFlow then l.fetchBlockScalar .literal
    else if ch = '>' ∧ !l.inFlow then l.fetchBlockScalar .folded
    else if ch = '\'' then l.fetchQuoted '\'' .singleQuoted
    else if ch = '"' then l.fetchQuoted '"' .doubleQuoted
    else if l.startsPlain then l.fetchPlain
    else c.fail "found character that cannot start any token"

/-- Needs `n` characters to be there, or the text to end before. -/
def demand (n : Nat) (l : Lexer) : Except SyntaxError Lexer :=
  match l.interruption with
  | none => .ok l
  | some e => if (l.cursor.rest.take n).length < n then .error e else .ok l

/-- Most characters that are looked at before it is known what kind of token starts. -/
def startLookahead : Nat := 4

/-- Characters that are looked at after the token that has been queued: one that ends it, and for a
plain scalar another, as a colon may be part of it. -/
def endLookahead (l : Lexer) : Nat :=
  match l.queue.getLast? with
  | some ⟨.scalar _ .plain, _, _⟩ => 2
  | _ => 1

/-- Goes to the next token and queues it. -/
def fetch (l : Lexer) : Except SyntaxError Lexer := do
  let l ← (skipToToken l.fuel l).dropStale
  let l ← (l.dedent l.mark.column).demand startLookahead
  let l ← l.fetchHere
  l.demand l.endLookahead

/-! ### All tokens -/

/-- The first token of the queue may still get others in front of it, or there is none. -/
def needsMore (l : Lexer) : Bool :=
  l.queue.isEmpty || l.keys.any fun k => k.any fun k => k.number == l.taken

/-- Fetches until the first token of the queue can leave it. -/
def fill : (fuel : Nat) → Lexer → Except SyntaxError Lexer
  | 0, l => .ok l
  | fuel + 1, l => do
    let l ← if l.queue.isEmpty then .ok l else l.dropStale
    if l.needsMore && !l.ended then
      let l ← l.fetch
      fill fuel l
    else .ok l

/-- All tokens on from `l`, and the error that ended them if one did. -/
def drain : (fuel : Nat) → Lexer → List Token × Option SyntaxError
  | 0, _ => ([], none)
  | fuel + 1, l =>
    match l.fill l.fuel with
    | .error e => ([], some e)
    | .ok l =>
      match l.queue with
      | [] => ([], none)
      | t :: queue =>
        let (rest, e) := drain fuel { l with queue, taken := l.taken + 1 }
        (t :: rest, e)

end Lexer

/-! ### Portions -/

/-- Most bytes of a portion. -/
def portionSize : Nat := 16384

/-- The first portion of `text`, with room for `room` more bytes, and what follows it. -/
def splitPortion : (room : Nat) → (text : List Char) → List Char × List Char
  | _, [] => ([], [])
  | room, ch :: rest =>
    if ch.utf8Size ≤ room then
      let (portion, rest) := splitPortion (room - ch.utf8Size) rest
      (ch :: portion, rest)
    else ([], ch :: rest)

/-- The portions of `text` before the first one that holds a character that may not stand in a
text, and whether there is such a portion. -/
def takeSound : (fuel : Nat) → (text : List Char) → List Char × Bool
  | 0, _ => ([], false)
  | _, [] => ([], false)
  | fuel + 1, text =>
    let (portion, rest) := splitPortion portionSize text
    if portion.all isAllowed then
      let (sound, broken) := takeSound fuel rest
      (portion ++ sound, broken)
    else ([], true)

/-- The tokens of a text, and the error that ended them if one did.  One character of the text
gives a few tokens at most. -/
def tokens (text : String) : List Token × Option SyntaxError :=
  let (sound, broken) := takeSound (text.length + 1) text.toList
  let interruption :=
    if broken then some ⟨"control characters are not allowed", .origin⟩ else none
  (Lexer.ofText sound interruption).drain (4 * sound.length + 4)

end BurstRing.Yaml
