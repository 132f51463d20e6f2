import BurstRing.Registry
import BurstRing.LinkCounts
import BurstRing.Ring.Reply
import BurstRing.Text.Blank

/-!
# The table of diagnostic commands

A command has a path and takes at most one parameter, which a request line gives after a comma:
`/ring/info,rx-to-worker`.  A command looks at the registry of rings, or at the link-state counters,
that it was registered with, and answers in JSON.
-/

namespace BurstRing

/-- Which of all registries of rings. -/
structure RegistryRef where
  index : Nat
  deriving DecidableEq, Repr

/-- Which of all sets of link-state counters. -/
structure LinkCountsRef where
  index : Nat
  deriving DecidableEq, Repr

/-- What a command does, and what it looks at. -/
inductive Handler where
  | ringList (rings : RegistryRef)
  | ringInfo (rings : RegistryRef)
  | linkState (links : LinkCountsRef)
  deriving DecidableEq, Repr

/-- One line on a command and its parameter. -/
def Handler.help : Handler → String
  | .ringList _ => "Show list of rings. Takes no parameters."
  | .ringInfo _ => "Show info on the ring. Param: ring name."
  | .linkState _ => "Returns LSC counter for specified source id."

/-- What commands look at, as it is when they are asked. -/
structure Watched where
  rings : RegistryRef → Registry
  links : LinkCountsRef → LinkCounts

/-- All commands look at the same. -/
def Watched.only (rings : Registry) (links : LinkCounts) : Watched :=
  ⟨fun _ => rings, fun _ => links⟩

/-- Where the commands on rings stand by default. -/
def ringPath : String := "/ring"

/-- Where the command on link states stands by default. -/
def linkPath : String := "/ethdev/lsc"

/-- Commands by path. -/
structure CommandTable where
  handlers : Std.TreeMap String Handler

namespace CommandTable

def empty : CommandTable := ⟨∅⟩

/-! ### Registration -/

/-- Enters one command, unless its path is taken. -/
def insert (path : String) (handler : Handler) (t : CommandTable) :
    Except DiagnosticError Unit × CommandTable :=
  if t.handlers.contains path then (.error (.duplicateCommand path), t)
  else (.ok (), ⟨t.handlers.insert path handler⟩)

/-- Enters the list of the rings in a registry and then the details of one, below `root`.  The
first stays when the second is refused. -/
def registerRings (root : String) (rings : RegistryRef) (t : CommandTable) :
    Except DiagnosticError Unit × CommandTable :=
  match t.insert (root ++ "/list") (.ringList rings) with
  | (.error e, t) => (.error e, t)
  | (.ok (), t) => t.insert (root ++ "/info") (.ringInfo rings)

/-- Enters the query of link-state counters. -/
def registerLinkState (path : String) (links : LinkCountsRef) (t : CommandTable) :
    Except DiagnosticError Unit × CommandTable :=
  t.insert path (.linkState links)

/-- All commands at their default paths. -/
def withDefaults (rings : RegistryRef) (links : LinkCountsRef) : CommandTable :=
  ((empty.registerRings ringPath rings).2.registerLinkState linkPath links).2

/-- Paths with their help, in order of the paths. -/
def commands (t : CommandTable) : List (String × String) :=
  t.handlers.toList.map fun (path, handler) => (path, handler.help)

/-! ### Requests -/

/-- The parameter without the blanks around it; a blank one is missing. -/
def requiredParam (path : String) (param : Option String) : Except DiagnosticError String :=
  match param.map Text.trimmed with
  | some p => if p = "" then .error (.missingParameter path) else .ok p
  | none => .error (.missingParameter path)

/-- Runs the command at `path`. -/
def call (t : CommandTable) (watched : Watched) (path : String) (param : Option String) :
    Except Failure Json :=
  match t.handlers[path]? with
  | none => .error (.diagnostic (.unknownCommand path))
  | some (.ringList rings) => .ok (.array ((watched.rings rings).list.map Json.ofString))
  | some (.ringInfo rings) => do
    let name ← (requiredParam path param).mapError .diagnostic
    let info ← ((watched.rings rings).info name).mapError .registry
    .ok info.reply
  | some (.linkState links) => do
    let text ← (requiredParam path param).mapError .diagnostic
    let source ← (SourceId.read text.toList).mapError fun _ =>
      .diagnostic (.invalidParameter path text)
    let info ← ((watched.links links).query source).mapError .linkState
    .ok info.reply

/-- A request line as path and parameter: the path is what stands before the first comma, without
blanks around it. -/
def splitRequest (request : String) : String × Option String :=
  let (path, param) := Text.cutFirst ',' request.toList
  (String.ofList (Text.trim path), param.map String.ofList)

/-- Runs a request line. -/
def execute (t : CommandTable) (watched : Watched) (request : String) : Except Failure Json :=
  let (path, param) := splitRequest request
  t.call watched path param

end CommandTable

end BurstRing
