import BurstRing.CommandLine.Execute

/-!
# The program

Reads the arguments and the file they name, runs the command, and prints what it leaves behind.
Only a session and the duration of a stress check depend on the clock: a session's workers move in
turn until its time is up, or until the program is interrupted.
-/

namespace BurstRing.Program

/-- Memory of a process: what its addresses can name. -/
def memory : Memory := .below (Nat.pow 2 47)

/-- What is found at `path`. -/
def contentAt (path : String) : IO FileContent :=
  try
    return .bytes (← IO.FS.readBinFile path)
  catch
    | .noFileOrDirectory .. => return .missing
    | .inappropriateType .. => return .directory
    | cause => return .unreadable (toString cause)

/-- Moves the workers of a session until `deadline`, if there is one. -/
partial def drive (deadline : Option Nat) (s : Session) : IO Session := do
  let isUp ← match deadline with
    | none => pure false
    | some time => do pure (time ≤ (← IO.monoMsNow))
  if isUp then return s
  drive deadline (s.rounds 64)

/-- Prints an output, and tells its exit code. -/
def print (o : Output) : IO UInt32 := do
  o.lines.forM fun line => IO.println line
  o.errors.forM fun line => IO.eprintln line
  return o.exit

/-- Runs a command in its surroundings. -/
def run (e : Surroundings) (i : Invocation) : IO Output := do
  match i.command with
  | .run producers duration =>
    match e.session i.config producers with
    | .error fault => return .error fault.debug
    | .ok session =>
      let now ← IO.monoMsNow
      let session ← drive (duration.map fun ms => now + ms.toNat) session
      return Report.session session.conclude
  | .stress producers perProducer =>
    let started ← IO.monoNanosNow
    let o ← IO.lazyPure fun () => e.stress producers perProducer
    let stopped ← IO.monoNanosNow
    if o.exit ≠ 0 then return o
    let handles := producers.toNat * perProducer.toNat
    return { o with lines := o.lines ++ Report.pace handles (stopped - started) }
  | .validate _ | .rings _ => return e.run i

end BurstRing.Program

open BurstRing in
/-- Runs the program. -/
def main (args : List String) : IO UInt32 := do
  match Invocation.read args with
  | .error detour => Program.print detour.output
  | .ok i =>
    let content ← match i.path? with
      | none => pure .missing
      | some path => Program.contentAt path
    Program.print (← Program.run ⟨fun _ => content, Program.memory, .checked, 0⟩ i)
