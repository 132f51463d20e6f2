import BurstRing.Yaml.Node.OfTokens
import BurstRing.Yaml.Token.Stream

/-!
# Documents

The first document of a text, and what the text has after it.  A text without any document counts
as an empty scalar at its end.
-/

namespace BurstRing.Yaml

/-- What comes after a document. -/
inductive Ending where
  /-- The text ends. -/
  | clean
  /-- The document does not end as it should. -/
  | broken (cause : SyntaxError)
  /-- Another document, or what would have to be one. -/
  | more
  deriving DecidableEq, Repr

structure Document where
  root : Node
  anchors : Anchors
  ending : Ending
  deriving Repr

namespace Document

/-- How often aliases of a document may be followed, for each mark of its tree. -/
def aliasesPerMark : Nat := 100

/-- How often the aliases of a document may be followed in all.  An alias may stand for a tree with
aliases in it, so the number of times that following them leads somewhere is not bounded by the
length of the text; this is. -/
def aliasLimit (d : Document) : Nat := aliasesPerMark * d.root.size

/-- The handles that every document has. -/
def defaultHandles : List (String × Tag) :=
  [("!", .ofText "!"), ("!!", .ofText "tag:yaml.org,2002:")]

/-- Directives before a document: whether its version has been told, and its tag handles. -/
structure Directives where
  versioned : Bool
  handles : List (String × Tag)

/-- Reads directives on from `d`.  A version is told once and is 1.1 or 1.2; a handle is told
once. -/
def readDirectives : (fuel : Nat) → Directives → NodeReader →
    Except SyntaxError (Directives × NodeReader)
  | 0, _, r => .error r.failure
  | fuel + 1, d, r =>
    match r.peek? with
    | none => .error r.failure
    | some ⟨.versionDirective major minor, start, _⟩ =>
      if d.versioned then .error ⟨"found duplicate %YAML directive", start⟩
      else if major = 1 ∧ (minor = 1 ∨ minor = 2) then
        readDirectives fuel { d with versioned := true } r.skip
      else .error ⟨"found incompatible YAML document", start⟩
    | some ⟨.tagDirective handle stem, start, _⟩ =>
      if d.handles.any (·.1 == handle) then .error ⟨"found duplicate %TAG directive", start⟩
      else readDirectives fuel { d with handles := d.handles ++ [(handle, stem)] } r.skip
    | some _ => .ok (d, r)

/-- The root of a document after its start. -/
def readContent (fuel : Nat) (r : NodeReader) : Node × Remainder :=
  match r.peek? with
  | none => (.missing, .error r.failure)
  | some t =>
    match t.kind with
    | .versionDirective .. | .tagDirective .. | .documentStart | .documentEnd | .streamEnd =>
      (.empty t.start, .ok r)
    | _ => readNode true false fuel r

/-- The root of a document that begins with directives or with its start. -/
def readExplicit (fuel : Nat) (r : NodeReader) : Node × Remainder :=
  match readDirectives fuel ⟨false, []⟩ r with
  | .error e => (.missing, .error e)
  | .ok (d, r) =>
    let r := { r with handles := d.handles ++ defaultHandles }
    match r.peek? with
    | some ⟨.documentStart, _, _⟩ => readContent fuel r.skip
    | _ => (.missing, .error (r.fail "did not find expected <document start>"))

/-- The root of the first document. -/
def readRoot (fuel : Nat) (r : NodeReader) : Node × Remainder :=
  match r.peek? with
  | none => (.missing, .error r.failure)
  | some t =>
    match t.kind with
    | .streamEnd => (.empty t.start, .ok r)
    | .versionDirective .. | .tagDirective .. | .documentStart => readExplicit fuel r
    | _ => readNode true false fuel r

/-- What comes after the root of the first document. -/
def readEnding (r : NodeReader) : Ending :=
  match r.tokens with
  | [] => .broken r.failure
  | tokens =>
    match (tokens.dropWhile (·.kind == .documentEnd)).head? with
    | some ⟨.streamEnd, _, _⟩ => .clean
    | _ => .more

/-- The first document of `text`. -/
def ofText (text : String) : Document :=
  let (tokens, failure) := tokens text
  let r : NodeReader :=
    ⟨tokens, failure.getD ⟨"did not find expected <stream end>", .origin⟩, [], defaultHandles⟩
  let (root, after) := readRoot (4 * tokens.length + 8) r
  ⟨root, root.anchors, match after with
    | .error e => .broken e
    | .ok r => readEnding r⟩

end Document

end BurstRing.Yaml
