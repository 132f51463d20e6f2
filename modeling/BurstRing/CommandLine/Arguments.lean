import BurstRing.Text.Blank
import BurstRing.Text.Numeral

/-!
# Arguments

The arguments of the program, told apart first into items and then read as an invocation.

An option is written `--name VALUE`, `--name=VALUE`, `-n VALUE`, `-nVALUE` or `-n=VALUE`; options
without a value may share a hyphen.  A lone hyphen is a word, and so is everything after `--`.
Options of the program stand before the command and those of the command after it, each at most
once.

Items are read from the left, and the first that decides does: a fault, or a wish for help or for
the version.
-/

namespace BurstRing

/-! ### Items -/

/-- What an option is about. -/
inductive Flag where
  | config
  | verbose
  | help
  | version
  | json
  | producers
  | duration
  | perProducer
  deriving DecidableEq, Repr

/-- How an option is written. -/
structure FlagForm where
  flag : Flag
  long : String
  short : Option Char
  takesValue : Bool
  deriving Repr

/-- One item of a command line. -/
inductive Item where
  | flag (flag : Flag) (value : Option String)
  /-- A word, with all arguments after it. -/
  | word (text : String) (rest : List String)
  /-- A word after `--`. -/
  | literal (text : String)
  /-- An unknown option, a missing value, or one too many. -/
  | faulty
  deriving DecidableEq, Repr

namespace Item

/-- An argument that is no option. -/
def isWord (arg : String) : Bool :=
  match arg.toList with
  | '-' :: _ :: _ => false
  | _ => true

/-- An option `--name` or `--name=value`; the flag waits for its value in the next argument. -/
def ofLong (forms : List FlagForm) (name : String) (value : Option String) :
    List Item × Option Flag :=
  match forms.find? (·.long == name), value with
  | none, _ => ([.faulty], none)
  | some form, none =>
    if form.takesValue then ([], some form.flag) else ([.flag form.flag none], none)
  | some form, some value =>
    if form.takesValue then ([.flag form.flag (some value)], none) else ([.faulty], none)

/-- Options behind one hyphen, of which the last may have a value. -/
def ofShort (forms : List FlagForm) : List Char → List Item × Option Flag
  | [] => ([], none)
  | c :: cs =>
    match forms.find? (·.short == some c) with
    | none => ([.faulty], none)
    | some form =>
      if form.takesValue then
        match cs with
        | [] => ([], some form.flag)
        | '=' :: value => ([.flag form.flag (some (String.ofList value))], none)
        | value => ([.flag form.flag (some (String.ofList value))], none)
      else
        let (items, waiting) := ofShort forms cs
        (.flag form.flag none :: items, waiting)

/-- The options in one argument. -/
def ofOption (forms : List FlagForm) (arg : String) : List Item × Option Flag :=
  match arg.toList with
  | '-' :: '-' :: text =>
    let (name, value) := Text.cutFirst '=' text
    ofLong forms (String.ofList name) (value.map String.ofList)
  | _ :: text => ofShort forms text
  | [] => ([.faulty], none)

/-- The items of `args`; there is none after a value that is missing. -/
def ofArgs (forms : List FlagForm) : List String → List Item
  | [] => []
  | arg :: rest =>
    if arg = "--" then rest.map .literal
    else if isWord arg then .word arg rest :: ofArgs forms rest
    else
      let (items, waiting) := ofOption forms arg
      match waiting with
      | none => items ++ ofArgs forms rest
      | some f =>
        match rest with
        | [] => items ++ [.faulty]
        | value :: rest =>
          if isWord value then items ++ .flag f (some value) :: ofArgs forms rest
          else items ++ [.faulty]

end Item

/-! ### Invocations -/

/-- What the program is to do. -/
inductive Command where
  | validate (file : String)
  | rings (json : Bool)
  /-- Drive traffic, for so many milliseconds or until it is interrupted. -/
  | run (producers : UInt64) (duration : Option UInt64)
  | stress (producers perProducer : UInt64)
  deriving DecidableEq, Repr

/-- A command, with the options of the program. -/
structure Invocation where
  config : String
  verbose : Bool
  command : Command
  deriving DecidableEq, Repr

/-- Why there is no command to run. -/
inductive Detour where
  /-- The arguments are not understood. -/
  | usage
  | help
  | version
  deriving DecidableEq, Repr

/-- What the options and words read so far say. -/
structure Draft where
  config : Option String
  verbose : Bool
  json : Bool
  producers : Option UInt64
  duration : Option UInt64
  perProducer : Option UInt64
  words : List String
  deriving DecidableEq, Repr

namespace Draft

def empty : Draft := ⟨none, false, false, none, none, none, []⟩

/-- A number that has not been given before. -/
def number (old : Option UInt64) (value : Option String) : Except Detour (Option UInt64) :=
  match old, value.map fun text => Text.readWord text.toList with
  | none, some (.ok n) => .ok (some n)
  | _, _ => .error .usage

/-- A switch that has not been set before. -/
def switch (old : Bool) : Except Detour Bool := if old then .error .usage else .ok true

/-- Takes one option in. -/
def take (flag : Flag) (value : Option String) (d : Draft) : Except Detour Draft :=
  match flag with
  | .help => .error .help
  | .version => .error .version
  | .verbose => do .ok { d with verbose := ← switch d.verbose }
  | .json => do .ok { d with json := ← switch d.json }
  | .config => if d.config.isSome then .error .usage else .ok { d with config := value }
  | .producers => do .ok { d with producers := ← number d.producers value }
  | .duration => do .ok { d with duration := ← number d.duration value }
  | .perProducer => do .ok { d with perProducer := ← number d.perProducer value }

/-- Takes all items in; `words` is how many words there may be. -/
def takeAll (words : Nat) (d : Draft) : List Item → Except Detour Draft
  | [] => .ok d
  | .flag flag value :: items => do (← d.take flag value).takeAll words items
  | .word text _ :: items | .literal text :: items =>
    if d.words.length < words then takeAll words { d with words := d.words ++ [text] } items
    else .error .usage
  | .faulty :: _ => .error .usage

end Draft

namespace Command

def helpForm : FlagForm := ⟨.help, "help", some 'h', false⟩

def producersForm : FlagForm := ⟨.producers, "producers", some 'p', true⟩

/-- Producers of a run by default. -/
def defaultRunProducers : UInt64 := 1

/-- Producers of a stress check by default. -/
def defaultStressProducers : UInt64 := 4

/-- Handles of each producer of a stress check by default. -/
def defaultPerProducer : UInt64 := 100000

/-- Names of all commands. -/
def names : List String := ["validate", "rings", "run", "stress", "help"]

/-- The command called `name` with its arguments. -/
def read (name : String) (args : List String) : Except Detour Command :=
  let draft (words : Nat) (forms : List FlagForm) : Except Detour Draft :=
    Draft.empty.takeAll words (Item.ofArgs (helpForm :: forms) args)
  match name with
  | "validate" => do
    match (← draft 1 []).words with
    | [file] => .ok (.validate file)
    | _ => .error .usage
  | "rings" => do
    .ok (.rings (← draft 0 [⟨.json, "json", none, false⟩]).json)
  | "run" => do
    let d ← draft 0 [producersForm, ⟨.duration, "duration-ms", some 'd', true⟩]
    .ok (.run (d.producers.getD defaultRunProducers) d.duration)
  | "stress" => do
    let d ← draft 0 [producersForm, ⟨.perProducer, "per-producer", none, true⟩]
    .ok (.stress (d.producers.getD defaultStressProducers)
      (d.perProducer.getD defaultPerProducer))
  | "help" =>
    match args with
    | [] => .error .help
    | [topic] => .error (if names.contains topic then .help else .usage)
    | _ => .error .usage
  | _ => .error .usage

end Command

namespace Invocation

/-- The configuration file by default. -/
def defaultConfig : String := "ringloop.yaml"

/-- Options that stand before the command. -/
def forms : List FlagForm :=
  [⟨.config, "config", some 'c', true⟩, ⟨.verbose, "verbose", some 'v', false⟩, Command.helpForm,
    ⟨.version, "version", some 'V', false⟩]

/-- Reads on after `d`; the first word is the command. -/
def ofItems (d : Draft) : List Item → Except Detour Invocation
  | [] => .error .usage
  | .flag flag value :: items => do ofItems (← d.take flag value) items
  | .word name rest :: _ => do
    .ok ⟨d.config.getD defaultConfig, d.verbose, ← Command.read name rest⟩
  | .literal _ :: _ | .faulty :: _ => .error .usage

/-- Reads all arguments. -/
def read (args : List String) : Except Detour Invocation :=
  ofItems .empty (Item.ofArgs forms args)

/-- The file that the command reads, if it reads one. -/
def path? (i : Invocation) : Option String :=
  match i.command with
  | .validate file => some file
  | .rings _ | .run _ _ => some i.config
  | .stress _ _ => none

end Invocation

end BurstRing
