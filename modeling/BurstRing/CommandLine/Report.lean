import BurstRing.Config.Basic
import BurstRing.Json.Writer
import BurstRing.Ring.Basic
import BurstRing.Run.Session
import BurstRing.Stress.Check

/-!
# Reports

The lines that each command prints when it has done its work, and those that say why it has not.
-/

namespace BurstRing

/-- What the program leaves behind: its exit code, and the lines on its two outputs. -/
structure Output where
  exit : UInt32
  lines : List String
  errors : List String
  deriving DecidableEq, Repr

namespace Output

/-- The work is done. -/
def done (lines : List String) : Output := ⟨0, lines, []⟩

/-- The work failed. -/
def failed (errors : List String) : Output := ⟨1, [], errors⟩

/-- An error, as it is shown to whoever looks into it. -/
def error (debug : String) : Output := failed ["Error: " ++ debug]

/-- The program broke off. -/
def panicked (panic : Panic) : Output := ⟨101, [], [panic.message]⟩

end Output

namespace Report

/-- The text with blanks after it, up to `width` characters. -/
def padded (width : Nat) (text : String) : String := text.pushn ' ' (width - text.length)

/-- A line of a list of values. -/
def entry (label value : String) : String := "  " ++ padded 20 (label ++ ":") ++ value

/-! ### Configurations -/

def ringLine (c : RingConfig) : String :=
  s!"  - {c.name.text} (capacity: {c.capacity.toNat}, element size: {c.elementSize.toNat}, "
    ++ s!"producer: {c.producer.text}, consumer: {c.consumer.text})"

def validity (c : Config) : List String :=
  ["✓ Configuration is valid", "", "Pipeline Settings:",
    entry "Flush Interval" c.pipeline.flushInterval.text,
    entry "Burst Size" (toString c.pipeline.burstSize.toNat), "", "Receive Cache:",
    entry "Size" (toString c.cache.size.toNat), entry "Locality" c.cache.locality.text, "",
    s!"Rings ({c.rings.length}):"] ++ c.rings.map ringLine

def invalidity (cause : Failure) : List String :=
  ["✗ Configuration validation failed:", "  " ++ cause.message]

/-! ### Rings -/

/-- Widths of the columns of the table of rings. -/
def columns : List Nat := [25, 8, 9, 8, 14]

/-- A line of the table between `left`, `middle` and `right`. -/
def rule (left middle right : String) : String :=
  left ++ middle.intercalate (columns.map fun width => "".pushn '═' (width + 2)) ++ right

/-- A row of the table. -/
def row (cells : List String) : String :=
  "║" ++ "║".intercalate (columns.zipWith (fun w cell => " " ++ padded w cell ++ " ") cells) ++ "║"

def infoRow (i : RingInfo) : String :=
  row [i.name, toString i.configuredSize, toString i.usableCapacity, toString i.elementSize,
    i.producerTag ++ " / " ++ i.consumerTag]

/-- The table of all rings. -/
def ringTable (infos : List RingInfo) : List String :=
  [rule "╔" "═" "╗",
    "║" ++ padded 78 ("".pushn ' ' 30 ++ "CONFIGURED RINGS") ++ "║",
    rule "╠" "╦" "╣", row ["Name", "Size", "Capacity", "Elem (B)", "Prod / Cons"],
    rule "╠" "╬" "╣"] ++ infos.map infoRow
    ++ [rule "╚" "╩" "╝", "", s!"Total: {infos.length} ring(s)"]

/-- The replies of the diagnostic commands about all rings. -/
def ringReplies (names : Json) (infos : List Json) : List String :=
  names.compact :: infos.map (Json.pretty "")

/-! ### Stress checks -/

def stress (r : StressReport) : List String :=
  ["✓ Stress check passed", entry "Producers" (toString r.producers),
    entry "Handles" (toString r.handles), entry "Ring capacity" (toString r.capacity)]

/-- A duration in the largest unit of which it has one, with two decimals. -/
def duration (nanoseconds : Nat) : String :=
  let (unit, name) :=
    if 1000000000 ≤ nanoseconds then (1000000000, "s")
    else if 1000000 ≤ nanoseconds then (1000000, "ms")
    else if 1000 ≤ nanoseconds then (1000, "µs")
    else (1, "ns")
  let hundredths := (200 * nanoseconds + unit) / (2 * unit)
  let decimals := toString (hundredths % 100)
  s!"{hundredths / 100}." ++ "".pushn '0' (2 - decimals.length) ++ decimals ++ name

/-- How long a stress check of so many handles took. -/
def pace (handles nanoseconds : Nat) : List String :=
  [entry "Elapsed" (duration nanoseconds),
    entry "Throughput" s!"{handles * 1000000000 / max nanoseconds 1} handles/s"]

/-! ### Sessions -/

def accounts (r : SessionReport) : List String :=
  [s!"Pipeline stopped ({r.loop.exit.debug})",
    entry "Iterations" (toString r.loop.iterations.toNat),
    entry "Flushes" (toString r.loop.flushes.toNat),
    entry "Generated" (toString r.generated.toNat),
    entry "Forwarded" (toString r.forwarded.toNat),
    entry "Released unread" (toString r.released.toNat),
    entry "Delivered" (toString r.delivered.toNat),
    entry "Left in ring" (toString r.left.toNat)]
    ++ if r.closes then ["✓ Every handle accounted for"] else []

/-- What is said of the link of one source. -/
def linkLine (source : SourceId) (reply : Json) : String :=
  s!"source {source.text}: " ++ reply.compact

/-- The accounts of a session that is over, its ring, and its links. -/
def session (s : Session) : Output :=
  let replies : Except Failure (List String) := do
    let info ← s.diagnose (ringPath ++ "/info," ++ s.ring.name.text)
    let links ← s.subscriptions.toList.mapM fun subscription => do
      let source := subscription.source
      .ok (linkLine source (← s.diagnose (linkPath ++ "," ++ source.text)))
    .ok ("" :: info.pretty "" :: links)
  match s.report with
  | .error fault => .error fault.debug
  | .ok r =>
    match replies with
    | .error cause => ⟨1, accounts r, ["Error: " ++ cause.debug]⟩
    | .ok lines => .done (accounts r ++ lines)

/-! ### The program -/

def version : List String := ["ringloop 1.0.0"]

def usage : List String :=
  ["Usage: ringloop [OPTIONS] <COMMAND>", "", "Commands:",
    "  validate <FILE>                      Validate a configuration file",
    "  rings [--json]                       Create the configured rings and show them",
    "  run [-p <N>] [-d <MS>]               Drive synthetic sources through the first ring",
    "  stress [-p <N>] [--per-producer <M>] Check for lost and repeated handles", "", "Options:",
    "  -c, --config <CONFIG>  Configuration file path [default: ringloop.yaml]",
    "  -v, --verbose          Enable verbose logging",
    "  -h, --help             Print help",
    "  -V, --version          Print version"]

end Report

end BurstRing
