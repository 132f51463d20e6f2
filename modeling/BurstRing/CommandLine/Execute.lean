import BurstRing.CommandLine.Arguments
import BurstRing.CommandLine.Report
import BurstRing.Config.Load

/-!
# Running a command

A command looks at its surroundings and leaves an `Output`.  Its surroundings are the files, the
memory that can be had, the build of the program, and, for a session, how many rounds its workers
get before the switch is raised that stops them.
-/

namespace BurstRing

/-- What a command can see of the world. -/
structure Surroundings where
  file : String → FileContent
  memory : Memory
  overflow : Overflow
  rounds : Nat

namespace Surroundings

/-- The configuration at `path`. -/
def config (e : Surroundings) (path : String) : Except Failure Config :=
  Config.ofFile path (e.file path)

/-- Says whether the file holds a configuration. -/
def validate (e : Surroundings) (file : String) : Output :=
  match e.config file with
  | .ok config => .done (Report.validity config)
  | .error cause => .failed (Report.invalidity cause)

/-- Creates the rings of a configuration and describes them, in a table or in diagnostic replies. -/
def rings (e : Surroundings) (path : String) (json : Bool) : Except Failure (List String) := do
  let config ← e.config path
  let (refs, registry) := Registry.empty.createAll e.memory config.rings
  let infos := ((← refs).filterMap registry.ring?).map Ring.info
  if json then
    let ask := (CommandTable.withDefaults ⟨0⟩ ⟨0⟩).execute (.only registry .empty)
    let names ← ask (ringPath ++ "/list")
    let replies ← infos.mapM fun info => ask (ringPath ++ "/info," ++ info.name)
    .ok (Report.ringReplies names replies)
  else .ok (Report.ringTable infos)

/-- Prepares a session for the configuration at `path`. -/
def session (e : Surroundings) (path : String) (producers : UInt64) :
    Except SessionFault Session := do
  let config ← (e.config path).mapError .failed
  Session.prepare e.memory config producers

/-- A whole stress check. -/
def stress (e : Surroundings) (producers perProducer : UInt64) : Output :=
  match StressPlan.ofWords producers perProducer with
  | .error cause => .error cause.debug
  | .ok plan =>
    match plan.ring e.overflow e.memory with
    | .error (.panicked panic) => .panicked panic
    | .error (.refused cause) => .error cause.debug
    | .ok ring =>
      let check := StressCheck.start plan ring
      match (check.run check.rounds).verdict with
      | .error cause => .error cause.debug
      | .ok report => .done (Report.stress report)

/-- Runs the command of an invocation. -/
def run (e : Surroundings) (i : Invocation) : Output :=
  match i.command with
  | .validate file => e.validate file
  | .rings json =>
    match e.rings i.config json with
    | .error cause => .error cause.debug
    | .ok lines => .done lines
  | .run producers _ =>
    match e.session i.config producers with
    | .error fault => .error fault.debug
    | .ok session => Report.session (session.rounds e.rounds).conclude
  | .stress producers perProducer => e.stress producers perProducer

end Surroundings

/-- What is said when there is no command to run. -/
def Detour.output : Detour → Output
  | .usage => ⟨2, [], Report.usage⟩
  | .help => .done Report.usage
  | .version => .done Report.version

/-- Runs the program on its arguments. -/
def execute (e : Surroundings) (args : List String) : Output :=
  match Invocation.read args with
  | .error detour => detour.output
  | .ok invocation => e.run invocation

end BurstRing
