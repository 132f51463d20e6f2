import BurstRing.Yaml.Node

/-!
# Nodes from tokens

A node is read from the tokens that are left, together with the names of the anchors seen so far
and the handles that tags may use.  Where the tokens make no node, or run out, what has been read
is still given, with the error in place of what is left.

The fuel bounds how deep the reading goes; a few units for each token are enough.
-/

namespace BurstRing.Yaml

/-- Tokens that are left, names of anchors with their numbers, and what tag handles stand for. -/
structure NodeReader where
  tokens : List Token
  /-- What stopped the tokens. -/
  failure : SyntaxError
  names : List (String × Nat)
  handles : List (String × Tag)

/-- What is left after a node, or why there is no whole node. -/
abbrev Remainder := Except SyntaxError NodeReader

namespace NodeReader

def peek? (r : NodeReader) : Option Token := r.tokens.head?

def skip (r : NodeReader) : NodeReader := { r with tokens := r.tokens.tail }

/-- An error at the next token. -/
def fail (r : NodeReader) (problem : String) : SyntaxError :=
  match r.peek? with
  | some t => ⟨problem, t.start⟩
  | none => r.failure

/-- The next token is one of `kinds`. -/
def isAtAny (r : NodeReader) (kinds : List TokenKind) : Bool :=
  r.peek?.any fun t => kinds.contains t.kind

/-! ### Properties -/

/-- Enters a name.  Its number is the number of names known before it, so a name that is entered
again shares its new number with the next new name. -/
def enter (name : String) (r : NodeReader) : Nat × NodeReader :=
  let number := r.names.length
  (number, { r with names := (name, number) :: r.names.filter (·.1 != name) })

/-- A tag in full. -/
def resolveTag (r : NodeReader) (handle : String) (suffix : Tag) : Option Tag :=
  if handle = "" then some suffix
  else (r.handles.find? (·.1 == handle)).map fun entry => entry.2.extend suffix

/-- What stands before a node, as it is written: an anchor and a tag in either order. -/
structure Written where
  anchor : Option String
  tag : Option (String × Tag)
  mark : Mark

def readWritten (mark : Mark) (r : NodeReader) : Written × NodeReader :=
  match r.tokens with
  | ⟨.anchor name, _, _⟩ :: ⟨.tag handle suffix, _, _⟩ :: tokens =>
    (⟨some name, some (handle, suffix), mark⟩, { r with tokens })
  | ⟨.tag handle suffix, _, _⟩ :: ⟨.anchor name, _, _⟩ :: tokens =>
    (⟨some name, some (handle, suffix), mark⟩, { r with tokens })
  | ⟨.anchor name, _, _⟩ :: tokens => (⟨some name, none, mark⟩, { r with tokens })
  | ⟨.tag handle suffix, _, _⟩ :: tokens =>
    (⟨none, some (handle, suffix), mark⟩, { r with tokens })
  | _ => (⟨none, none, mark⟩, r)

/-- Properties of a node that does start here. -/
def settle (w : Written) (tag : Option Tag) (r : NodeReader) : Properties × NodeReader :=
  match w.anchor with
  | none => (⟨none, tag, w.mark⟩, r)
  | some name =>
    let (number, r) := r.enter name
    (⟨some number, tag, w.mark⟩, r)

end NodeReader

open NodeReader

/-- A collection that has been read as far as it goes. -/
def closing {α : Type} (r : Except SyntaxError NodeReader) (build : (closed : Bool) → α) :
    α × Remainder :=
  (build r.isOk, r)

mutual

/-- A node.  `block` allows block collections, `indentless` a block sequence that is indented no
more than the mapping it is a value of. -/
def readNode (block indentless : Bool) : (fuel : Nat) → NodeReader → Node × Remainder
  | 0, r => (.missing, .error r.failure)
  | fuel + 1, r =>
    match r.peek? with
    | none => (.missing, .error r.failure)
    | some ⟨.alias name, start, _⟩ =>
      match r.names.find? (·.1 == name) with
      | some (_, number) => (.alias number start, .ok r.skip)
      | none => (.missing, .error ⟨"unknown anchor", start⟩)
    | some first =>
      let (written, r) := r.readWritten first.start
      let tag := written.tag.map fun (handle, suffix) => r.resolveTag handle suffix
      match r.peek?, tag with
      | none, _ => (.missing, .error r.failure)
      | some _, some none => (.missing, .error ⟨"found undefined tag handle", first.start⟩)
      | some t, tag =>
        let tag := tag.join
        let isBare := written.anchor.isNone && tag.isNone
        match t.kind with
        | .blockEntry =>
          if indentless then
            let (p, r) := r.settle written tag
            let (items, r) := readIndentlessItems fuel r
            closing r (.sequence p items)
          else if isBare then
            (.missing, .error (r.fail "did not find expected node content"))
          else
            let (p, r) := r.settle written tag
            (.scalar p "" .plain, .ok r)
        | .scalar text style =>
          let (p, r) := r.settle written tag
          (.scalar p text style, .ok r.skip)
        | .flowSequenceStart =>
          let (p, r) := r.settle written tag
          let (items, r) := readFlowItems true fuel r.skip
          closing r (.sequence p items)
        | .flowMappingStart =>
          let (p, r) := r.settle written tag
          let (entries, r) := readFlowEntries true fuel r.skip
          closing r (.mapping p entries)
        | .blockSequenceStart =>
          if block then
            let (p, r) := r.settle written tag
            let (items, r) := readBlockItems fuel r.skip
            closing r (.sequence p items)
          else if isBare then
            (.missing, .error (r.fail "did not find expected node content"))
          else
            let (p, r) := r.settle written tag
            (.scalar p "" .plain, .ok r)
        | .blockMappingStart =>
          if block then
            let (p, r) := r.settle written tag
            let (entries, r) := readBlockEntries fuel r.skip
            closing r (.mapping p entries)
          else if isBare then
            (.missing, .error (r.fail "did not find expected node content"))
          else
            let (p, r) := r.settle written tag
            (.scalar p "" .plain, .ok r)
        | _ =>
          if isBare then (.missing, .error (r.fail "did not find expected node content"))
          else
            let (p, r) := r.settle written tag
            (.scalar p "" .plain, .ok r)

/-- Items of a block sequence up to its end. -/
def readBlockItems : (fuel : Nat) → NodeReader → List Node × Remainder
  | 0, r => ([], .error r.failure)
  | fuel + 1, r =>
    match r.peek? with
    | some ⟨.blockEntry, _, stop⟩ =>
      let r := r.skip
      if r.tokens.isEmpty then ([], .error r.failure)
      else if r.isAtAny [.blockEntry, .blockEnd] then
        let (rest, r) := readBlockItems fuel r
        (.empty stop :: rest, r)
      else
        match readNode true false fuel r with
        | (node, .error e) => ([node], .error e)
        | (node, .ok r) =>
          let (rest, r) := readBlockItems fuel r
          (node :: rest, r)
    | some ⟨.blockEnd, _, _⟩ => ([], .ok r.skip)
    | _ => ([], .error (r.fail "did not find expected '-' indicator"))

/-- Items of a sequence that is indented no more than the mapping around it. -/
def readIndentlessItems : (fuel : Nat) → NodeReader → List Node × Remainder
  | 0, r => ([], .error r.failure)
  | fuel + 1, r =>
    match r.peek? with
    | some ⟨.blockEntry, _, stop⟩ =>
      let r := r.skip
      if r.tokens.isEmpty then ([], .error r.failure)
      else if r.isAtAny [.blockEntry, .key, .value, .blockEnd] then
        let (rest, r) := readIndentlessItems fuel r
        (.empty stop :: rest, r)
      else
        match readNode true false fuel r with
        | (node, .error e) => ([node], .error e)
        | (node, .ok r) =>
          let (rest, r) := readIndentlessItems fuel r
          (node :: rest, r)
    | some _ => ([], .ok r)
    | none => ([], .error r.failure)

/-- Entries of a block mapping up to its end. -/
def readBlockEntries : (fuel : Nat) → NodeReader → List (Node × Node) × Remainder
  | 0, r => ([], .error r.failure)
  | fuel + 1, r =>
    match r.peek? with
    | some ⟨.key, _, stop⟩ =>
      let r := r.skip
      if r.tokens.isEmpty then ([], .error r.failure)
      else if r.isAtAny [.key, .value, .blockEnd] then readBlockValue (.empty stop) fuel r
      else
        match readNode true true fuel r with
        | (key, .error e) => ([(key, .missing)], .error e)
        | (key, .ok r) => readBlockValue key fuel r
    | some ⟨.blockEnd, _, _⟩ => ([], .ok r.skip)
    | _ => ([], .error (r.fail "did not find expected key"))

/-- The value of `key`, and the entries after it. -/
def readBlockValue (key : Node) : (fuel : Nat) → NodeReader → List (Node × Node) × Remainder
  | 0, r => ([(key, .missing)], .error r.failure)
  | fuel + 1, r =>
    match r.peek? with
    | some ⟨.value, _, stop⟩ =>
      let r := r.skip
      if r.tokens.isEmpty then ([(key, .missing)], .error r.failure)
      else if r.isAtAny [.key, .value, .blockEnd] then
        let (rest, r) := readBlockEntries fuel r
        ((key, .empty stop) :: rest, r)
      else
        match readNode true true fuel r with
        | (value, .error e) => ([(key, value)], .error e)
        | (value, .ok r) =>
          let (rest, r) := readBlockEntries fuel r
          ((key, value) :: rest, r)
    | some t =>
      let (rest, r) := readBlockEntries fuel r
      ((key, .empty t.start) :: rest, r)
    | none => ([(key, .missing)], .error r.failure)

/-- Items of a flow sequence up to its end.  An item after the first follows a comma. -/
def readFlowItems (first : Bool) : (fuel : Nat) → NodeReader → List Node × Remainder
  | 0, r => ([], .error r.failure)
  | fuel + 1, r =>
    match r.peek? with
    | none => ([], .error r.failure)
    | some ⟨.flowSequenceEnd, _, _⟩ => ([], .ok r.skip)
    | some t =>
      if !first && t.kind != .flowEntry then
        ([], .error (r.fail "did not find expected ',' or ']'"))
      else
        let r := if first then r else r.skip
        match r.peek? with
        | none => ([], .error r.failure)
        | some ⟨.flowSequenceEnd, _, _⟩ => ([], .ok r.skip)
        | some ⟨.key, start, _⟩ =>
          let (entries, pair) := readFlowPair fuel r.skip
          let node : Node := .mapping (.bare start) entries pair.isOk
          match pair with
          | .error e => ([node], .error e)
          | .ok r =>
            let (rest, r) := readFlowItems false fuel r
            (node :: rest, r)
        | some _ =>
          match readNode false false fuel r with
          | (node, .error e) => ([node], .error e)
          | (node, .ok r) =>
            let (rest, r) := readFlowItems false fuel r
            (node :: rest, r)

/-- The one entry of a mapping that is an item of a flow sequence, after its key indicator.  Where
there is no key, the token in its place is passed over. -/
def readFlowPair : (fuel : Nat) → NodeReader → List (Node × Node) × Remainder
  | 0, r => ([], .error r.failure)
  | fuel + 1, r =>
    match r.peek? with
    | none => ([], .error r.failure)
    | some t =>
      let (key, after) : Node × Remainder :=
        if r.isAtAny [.value, .flowEntry, .flowSequenceEnd] then (.empty t.stop, .ok r.skip)
        else readNode false false fuel r
      match after with
      | .error e => ([(key, .missing)], .error e)
      | .ok r =>
        match r.peek? with
        | none => ([(key, .missing)], .error r.failure)
        | some ⟨.value, _, _⟩ =>
          let r := r.skip
          match r.peek? with
          | none => ([(key, .missing)], .error r.failure)
          | some t =>
            let (value, after) : Node × Remainder :=
              if r.isAtAny [.flowEntry, .flowSequenceEnd] then (.empty t.start, .ok r)
              else readNode false false fuel r
            match after with
            | .error e => ([(key, value)], .error e)
            | .ok r =>
              ([(key, value)], if r.tokens.isEmpty then .error r.failure else .ok r)
        | some t => ([(key, .empty t.start)], .ok r)

/-- Entries of a flow mapping up to its end.  An entry after the first follows a comma. -/
def readFlowEntries (first : Bool) : (fuel : Nat) → NodeReader → List (Node × Node) × Remainder
  | 0, r => ([], .error r.failure)
  | fuel + 1, r =>
    match r.peek? with
    | none => ([], .error r.failure)
    | some ⟨.flowMappingEnd, _, _⟩ => ([], .ok r.skip)
    | some t =>
      if !first && t.kind != .flowEntry then
        ([], .error (r.fail "did not find expected ',' or '\x7d'"))
      else
        let r := if first then r else r.skip
        match r.peek? with
        | none => ([], .error r.failure)
        | some ⟨.flowMappingEnd, _, _⟩ => ([], .ok r.skip)
        | some ⟨.key, _, _⟩ =>
          let r := r.skip
          match r.peek? with
          | none => ([], .error r.failure)
          | some t =>
            if r.isAtAny [.value, .flowEntry, .flowMappingEnd] then
              readFlowValue (.empty t.start) fuel r
            else
              match readNode false false fuel r with
              | (key, .error e) => ([(key, .missing)], .error e)
              | (key, .ok r) => readFlowValue key fuel r
        | some _ =>
          match readNode false false fuel r with
          | (key, .error e) => ([(key, .missing)], .error e)
          | (key, .ok r) =>
            match r.peek? with
            | none => ([(key, .missing)], .error r.failure)
            | some t =>
              let (rest, r) := readFlowEntries false fuel r
              ((key, .empty t.start) :: rest, r)

/-- The value of `key`, and the entries after it. -/
def readFlowValue (key : Node) : (fuel : Nat) → NodeReader → List (Node × Node) × Remainder
  | 0, r => ([(key, .missing)], .error r.failure)
  | fuel + 1, r =>
    match r.peek? with
    | none => ([(key, .missing)], .error r.failure)
    | some ⟨.value, _, _⟩ =>
      let r := r.skip
      match r.peek? with
      | none => ([(key, .missing)], .error r.failure)
      | some t =>
        if r.isAtAny [.flowEntry, .flowMappingEnd] then
          let (rest, r) := readFlowEntries false fuel r
          ((key, .empty t.start) :: rest, r)
        else
          match readNode false false fuel r with
          | (value, .error e) => ([(key, value)], .error e)
          | (value, .ok r) =>
            let (rest, r) := readFlowEntries false fuel r
            ((key, value) :: rest, r)
    | some t =>
      let (rest, r) := readFlowEntries false fuel r
      ((key, .empty t.start) :: rest, r)

end

end BurstRing.Yaml
