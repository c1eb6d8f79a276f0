import LineAsm.Command

/-!
# The command line

Reads the files, looks at the clock after every instruction, and prints.
-/
namespace LineAsm.Main

/-- The content of a file, or why it cannot be read. -/
def readFile (path : String) : IO (String × Except String String) := do
  try
    return (path, .ok (← IO.FS.readFile path))
  catch
    | .noFileOrDirectory .. => return (path, .error noSuchFile)
    | e => return (path, .error (toString e))

/-- Runs a program and notes the time after every instruction. -/
def timedRun (m : Machine) (code : List Instruction) : IO (Run × Array Nat) := do
  let start ← IO.monoNanosNow
  let mut run : Run := ⟨m, #[], false⟩
  let mut times : Array Nat := #[]
  for i in code do
    if run.halted then break
    run := run.step i
    times := times.push ((← IO.monoNanosNow) - start)
  return (run, times)

/-- Runs a job under the clock. -/
def perform (job : Job) : IO Printed := do
  let style := TimeStyle.measured 40
  match job.prepare with
  | .error failure => return job.finish style (fun _ => 0) (.error failure)
  | .ok prepared =>
    let (run, times) ← timedRun (prepared.1.machine job.settings.limits) prepared.1.code
    return job.finish style (fun n => times.getD n 0) (.ok (prepared, run))

def usage : String :=
  "Usage: lineasm [--config FILE] (run FILE | eval SOURCE | check FILE) " ++
    "[--json] [--trace] [--bytecode] [--visualize]"

end LineAsm.Main

open LineAsm LineAsm.Main in
def main (args : List String) : IO UInt32 := do
  match CommandLine.parse? args with
  | none =>
    IO.eprintln usage
    return 2
  | some line =>
    let contents ← line.paths.mapM readFile
    let files : Files := fun path => (contents.lookup path).getD (.error noSuchFile)
    let printed ← match line.plan files with
      | .badSettings message => pure (({} : Printed).failing message)
      | .print printed => pure printed
      | .job job => perform job
    IO.print printed.stdout
    IO.eprint printed.stderr
    return if printed.failed then 1 else 0
