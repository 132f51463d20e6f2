import BurstRing.Ident
import BurstRing.Text.Quoted

/-!
# Errors

One type of causes for each area, the wording of each cause, and a coarse class on which callers
branch.  `Failure` folds the areas into one type for whoever drives several of them.

A transfer that moves less than asked is no error, and nothing here stands for one.
-/

namespace BurstRing

open Text

/-- Coarse class of an error. -/
inductive ErrorKind where
  | invalidArgument
  | outOfMemory
  | notFound
  | alreadyExists
  | controlError
  deriving DecidableEq, Repr

/-! ### Settings -/

/-- A setting that keeps the program from starting. -/
inductive SettingError where
  | missingField (field context : String)
  | invalidValue (field value reason : String)
  | duplicateRing (name : String)
  | schema (detail : String)
  deriving DecidableEq, Repr

namespace SettingError

def message : SettingError → String
  | .missingField field context => s!"Missing required field: {field} in {context}"
  | .invalidValue field value reason => s!"Invalid field value: {field} = {value} - {reason}"
  | .duplicateRing name => s!"Duplicate ring name: {name}"
  | .schema detail => s!"Schema validation failed: {detail}"

def debug : SettingError → String
  | .missingField field context =>
      record "MissingRequiredField" [("field", quoted field), ("context", quoted context)]
  | .invalidValue field value reason =>
      record "InvalidFieldValue"
        [("field", quoted field), ("value", quoted value), ("reason", quoted reason)]
  | .duplicateRing name => record "DuplicateRingName" [("name", quoted name)]
  | .schema detail => record "SchemaValidation" [("message", quoted detail)]

end SettingError

/-! ### Rings -/

/-- One of the two sides of a ring. -/
inductive Side where
  | producer
  | consumer
  deriving DecidableEq, Repr

/-- The side across the ring. -/
def Side.opposite : Side → Side
  | .producer => .consumer
  | .consumer => .producer

def Side.text : Side → String
  | .producer => "producer"
  | .consumer => "consumer"

/-- A refused creation, transfer or split. -/
inductive RingError where
  | invalidCapacity (capacity min max : Nat)
  | invalidElementSize (elementSize : Nat)
  | elementSizeMismatch (expected actual : Nat)
  | misalignedBuffer (len elementSize : Nat)
  | emptyRequest
  | storageOverflow (capacity elementSize : Nat)
  | outOfMemory (bytes : Nat)
  | notSplittable (name : String) (side : Side)
  deriving DecidableEq, Repr

namespace RingError

def message : RingError → String
  | .invalidCapacity capacity min max =>
      s!"Ring capacity {capacity} is not a power of two in [{min}, {max}]"
  | .invalidElementSize size =>
      s!"Invalid element size {size}: must be a non-zero multiple of 4 bytes"
  | .elementSizeMismatch expected actual =>
      s!"Element size mismatch: ring stores {expected} bytes, request uses {actual}"
  | .misalignedBuffer len size =>
      s!"Buffer of {len} bytes is not a whole number of {size}-byte elements"
  | .emptyRequest => "Zero-length transfer request"
  | .storageOverflow capacity size =>
      s!"Ring storage size overflows: {capacity} x {size} bytes"
  | .outOfMemory bytes => s!"Out of memory allocating {bytes} bytes of ring storage"
  | .notSplittable name side =>
      s!"Ring {name} has a multi-threaded {side.text} side and cannot be split"

def debug : RingError → String
  | .invalidCapacity capacity min max =>
      record "InvalidCapacity"
        [("capacity", toString capacity), ("min", toString min), ("max", toString max)]
  | .invalidElementSize size => record "InvalidElementSize" [("element_size", toString size)]
  | .elementSizeMismatch expected actual =>
      record "ElementSizeMismatch" [("expected", toString expected), ("actual", toString actual)]
  | .misalignedBuffer len size =>
      record "MisalignedBuffer" [("len", toString len), ("element_size", toString size)]
  | .emptyRequest => "EmptyRequest"
  | .storageOverflow capacity size =>
      record "StorageOverflow"
        [("capacity", toString capacity), ("element_size", toString size)]
  | .outOfMemory bytes => record "OutOfMemory" [("bytes", toString bytes)]
  | .notSplittable name side =>
      record "NotSplittable" [("name", quoted name), ("side", quoted side.text)]

def kind : RingError → ErrorKind
  | .outOfMemory _ => .outOfMemory
  | _ => .invalidArgument

end RingError

/-! ### The registry of rings -/

/-- A name that is missing from the registry, or taken. -/
inductive RegistryError where
  | notFound (name : String)
  | alreadyExists (name : String)
  deriving DecidableEq, Repr

namespace RegistryError

def message : RegistryError → String
  | .notFound name => s!"Ring not found: {name}"
  | .alreadyExists name => s!"Ring already exists: {name}"

def debug : RegistryError → String
  | .notFound name => record "NotFound" [("name", quoted name)]
  | .alreadyExists name => record "AlreadyExists" [("name", quoted name)]

def kind : RegistryError → ErrorKind
  | .notFound _ => .notFound
  | .alreadyExists _ => .alreadyExists

end RegistryError

/-! ### Burst sources -/

/-- What a burst source reports, or what a cache holds against it. -/
inductive SourceError where
  | unknownSource (source : SourceId)
  | unknownChannel (source : SourceId) (channel : ChannelId)
  | overrun (returned max : Nat)
  | countMismatch (reported written : Nat)
  | zeroSize
  | outOfMemory (size : Nat)
  deriving DecidableEq, Repr

namespace SourceError

def message : SourceError → String
  | .unknownSource source => s!"Unknown source id: {source.text}"
  | .unknownChannel source channel =>
      s!"Unknown channel {channel.text} on source {source.text}"
  | .overrun returned max =>
      s!"Source returned {returned} handles for a request of at most {max}"
  | .countMismatch reported written =>
      s!"Source reported {reported} handles but wrote {written}"
  | .zeroSize => "Receive cache size must be at least 1"
  | .outOfMemory size => s!"Out of memory allocating receive cache for {size} handles"

def debug : SourceError → String
  | .unknownSource source =>
      record "UnknownSource" [("source_id", applied "SourceId" source.text)]
  | .unknownChannel source channel =>
      record "UnknownChannel"
        [("source_id", applied "SourceId" source.text),
          ("channel_id", applied "ChannelId" channel.text)]
  | .overrun returned max =>
      record "Overrun" [("returned", toString returned), ("max", toString max)]
  | .countMismatch reported written =>
      record "CountMismatch" [("reported", toString reported), ("written", toString written)]
  | .zeroSize => "ZeroSize"
  | .outOfMemory size => record "OutOfMemory" [("size", toString size)]

def kind : SourceError → ErrorKind
  | .outOfMemory _ => .outOfMemory
  | _ => .invalidArgument

end SourceError

/-! ### Pipeline loops -/

/-- A refused flush interval, or a control callback that failed. -/
inductive PipelineError where
  | invalidFlushInterval (interval : UInt32)
  | control (code : Int32) (iteration : UInt64)
  deriving DecidableEq, Repr

namespace PipelineError

def message : PipelineError → String
  | .invalidFlushInterval interval =>
      s!"Flush interval {interval.toNat} must be zero or a power of two"
  | .control code iteration =>
      s!"Control callback failed with code {code.toInt} at iteration {iteration.toNat}"

def debug : PipelineError → String
  | .invalidFlushInterval interval =>
      record "InvalidFlushInterval" [("interval", toString interval.toNat)]
  | .control code iteration =>
      record "Control" [("code", toString code.toInt), ("iteration", toString iteration.toNat)]

def kind : PipelineError → ErrorKind
  | .invalidFlushInterval _ => .invalidArgument
  | .control _ _ => .controlError

end PipelineError

/-! ### Link-state counters -/

/-- A source that has a subscription already, or none. -/
inductive LinkStateError where
  | alreadySubscribed (source : SourceId)
  | notSubscribed (source : SourceId)
  deriving DecidableEq, Repr

namespace LinkStateError

def message : LinkStateError → String
  | .alreadySubscribed source => s!"Source {source.text} is already subscribed"
  | .notSubscribed source => s!"Source {source.text} is not subscribed"

def debug : LinkStateError → String
  | .alreadySubscribed source =>
      record "AlreadySubscribed" [("source_id", applied "SourceId" source.text)]
  | .notSubscribed source =>
      record "NotSubscribed" [("source_id", applied "SourceId" source.text)]

def kind : LinkStateError → ErrorKind
  | .alreadySubscribed _ => .alreadyExists
  | .notSubscribed _ => .notFound

end LinkStateError

/-! ### Diagnostic commands -/

/-- A request that no command answers, or a path that is taken. -/
inductive DiagnosticError where
  | unknownCommand (command : String)
  | missingParameter (command : String)
  | invalidParameter (command param : String)
  | duplicateCommand (command : String)
  | encode (command detail : String)
  deriving DecidableEq, Repr

namespace DiagnosticError

def message : DiagnosticError → String
  | .unknownCommand command => s!"Unknown diagnostic command: {command}"
  | .missingParameter command => s!"Command {command} requires a parameter"
  | .invalidParameter command param => s!"Invalid parameter for {command}: {param}"
  | .duplicateCommand command => s!"Diagnostic command already registered: {command}"
  | .encode command detail => s!"Failed to encode reply for {command}: {detail}"

def debug : DiagnosticError → String
  | .unknownCommand command => record "UnknownCommand" [("command", quoted command)]
  | .missingParameter command => record "MissingParameter" [("command", quoted command)]
  | .invalidParameter command param =>
      record "InvalidParameter" [("command", quoted command), ("param", quoted param)]
  | .duplicateCommand command => record "DuplicateCommand" [("command", quoted command)]
  | .encode command detail =>
      record "Encode" [("command", quoted command), ("message", quoted detail)]

def kind : DiagnosticError → ErrorKind
  | .unknownCommand _ => .notFound
  | .duplicateCommand _ => .alreadyExists
  | _ => .invalidArgument

end DiagnosticError

/-! ### Files -/

/-- Why a file could not be read as text. -/
inductive FileError where
  | isDirectory
  | notText
  | other (detail : String)
  deriving DecidableEq, Repr

namespace FileError

def message : FileError → String
  | .isDirectory => "Is a directory (os error 21)"
  | .notText => "stream did not contain valid UTF-8"
  | .other detail => detail

def debug : FileError → String
  | .isDirectory =>
      record "Os" [("code", "21"), ("kind", "IsADirectory"), ("message", quoted "Is a directory")]
  | .notText =>
      record "Error"
        [("kind", "InvalidData"), ("message", quoted "stream did not contain valid UTF-8")]
  | .other detail => record "Custom" [("kind", "Other"), ("error", quoted detail)]

end FileError

/-! ### All areas together -/

/-- Any error of the library. -/
inductive Failure where
  | setting (cause : SettingError)
  | configNotFound (path : String)
  | configParse (detail : String)
  | ring (cause : RingError)
  | registry (cause : RegistryError)
  | source (cause : SourceError)
  | pipeline (cause : PipelineError)
  | linkState (cause : LinkStateError)
  | diagnostic (cause : DiagnosticError)
  | file (context : String) (cause : FileError)
  deriving DecidableEq, Repr

namespace Failure

def message : Failure → String
  | .setting e => s!"Hard validation error: {e.message}"
  | .configNotFound path => s!"Configuration file not found: {path}"
  | .configParse detail => s!"Configuration parse error: {detail}"
  | .ring e => s!"Ring error: {e.message}"
  | .registry e => s!"Registry error: {e.message}"
  | .source e => s!"Burst source error: {e.message}"
  | .pipeline e => s!"Pipeline error: {e.message}"
  | .linkState e => s!"Link state error: {e.message}"
  | .diagnostic e => s!"Diagnostic command error: {e.message}"
  | .file context e => s!"IO error: {context} - {e.message}"

def debug : Failure → String
  | .setting e => applied "HardValidation" e.debug
  | .configNotFound path => record "ConfigNotFound" [("path", quoted path)]
  | .configParse detail => record "ConfigParse" [("message", quoted detail)]
  | .ring e => applied "Ring" e.debug
  | .registry e => applied "Registry" e.debug
  | .source e => applied "Source" e.debug
  | .pipeline e => applied "Pipeline" e.debug
  | .linkState e => applied "LinkState" e.debug
  | .diagnostic e => applied "Diagnostic" e.debug
  | .file context e => record "Io" [("context", quoted context), ("source", e.debug)]

/-- Class of the whole failure: that of the error inside where the area has classes, but every
error of a source counts as a bad argument. -/
def kind : Failure → ErrorKind
  | .setting _ | .configParse _ => .invalidArgument
  | .configNotFound _ => .notFound
  | .ring e => e.kind
  | .registry e => e.kind
  | .source _ => .invalidArgument
  | .pipeline e => e.kind
  | .linkState e => e.kind
  | .diagnostic e => e.kind
  | .file _ _ => .invalidArgument

/-- Wording of the error inside, where there is one. -/
def cause? : Failure → Option String
  | .setting e => some e.message
  | .configNotFound _ | .configParse _ => none
  | .ring e => some e.message
  | .registry e => some e.message
  | .source e => some e.message
  | .pipeline e => some e.message
  | .linkState e => some e.message
  | .diagnostic e => some e.message
  | .file _ e => some e.message

/-- Class of the error inside, where that area has classes. -/
def innerKind? : Failure → Option ErrorKind
  | .ring e => some e.kind
  | .registry e => some e.kind
  | .source e => some e.kind
  | .pipeline e => some e.kind
  | .linkState e => some e.kind
  | .diagnostic e => some e.kind
  | _ => none

end Failure

end BurstRing
