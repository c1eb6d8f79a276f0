import LineAsm.Advice.Suggestions
import LineAsm.Machine.Exec
import LineAsm.Program.Compile
import LineAsm.Program.Sharing
import LineAsm.Settings
import LineAsm.Trace

/-!
# The engine

A request goes through five stages: the source is compiled while the predictor looks at its lines,
equal statements of the program are shared, the main code runs on a fresh machine, the visualizer
sees the trace, and the suggester sees the source. The three advisers change nothing of what is
compiled and run; the first one that fails fails the request, and a predictor that fails ends the
compilation.
-/
namespace LineAsm

open Text

/-- A suspicious line and its score. -/
structure Advisory where
  line : Nat
  score : Number.Binary64
  deriving DecidableEq

/-- Limits and advisers. -/
structure Engine where
  limits : Limits := {}
  predict : String → Except AdviserFailure Prediction := fun _ => .ok .clean
  visualize : List TraceEntry → Except AdviserFailure Unit := fun _ => .ok ()
  suggest : String → Except AdviserFailure (List String) := fun _ => .ok []

/-- What a request produced. -/
structure Report where
  instructions : Nat
  declarations : List Declaration
  advisories : List Advisory
  diagnostics : List Diagnostic
  errors : List ExecError
  registers : List (String × Word)
  memory : List (Location × Word)
  /-- The bottom of the stack first. -/
  stack : List Word
  output : List String
  journal : List Move
  trace : List TraceEntry
  suggestions : List String
  executed : Nat
  steps : Nat
  halted : Bool

/-- A fresh machine with the functions of a program. -/
def Program.machine (p : Program) (limits : Limits) : Machine :=
  ({ limits := limits } : Machine).load p

namespace Engine

/-- The engine that settings ask for. -/
def ofSettings (s : Settings) : Engine where
  limits := s.limits
  predict := if s.predictorEnabled then s.weights.predict else fun _ => .ok .clean
  suggest :=
    if s.suggestionsEnabled then fun source => .ok (LineAsm.suggest s.maxSuggestions source)
    else fun _ => .ok []

/-- Takes in one line of a source: the predictor is asked about it, and if it does not fail, the
statements of the line are compiled. -/
def line (e : Engine) (state : Builder × Array Advisory) (l : Nat × List Char) :
    Except AdviserFailure (Builder × Array Advisory) := do
  let (builder, advisories) := state
  let (number, text) := l
  let prediction ← e.predict (String.ofList text)
  let advisories :=
    if prediction.suspicious then advisories.push ⟨number, prediction.score⟩ else advisories
  return (builder.line number (lineStatements text), advisories)

/-- Compiles a source and asks the predictor, line by line. -/
def prepare (e : Engine) (source : String) :
    Except AdviserFailure (Program × List Advisory) := do
  let (builder, advisories) ← (codeLines source).foldlM e.line ({}, #[])
  return (builder.finish, advisories.toList)

/-- Shows the finished run to the other two advisers and reports. -/
def conclude (e : Engine) (source : String) (prepared : Program × List Advisory) (run : Run)
    (clock : Nat → Nat) : Except AdviserFailure Report := do
  let trace := stamp clock run.trace.toList
  e.visualize trace
  let suggestions ← e.suggest source
  let (program, advisories) := prepared
  return {
    instructions := program.code.length
    declarations := program.declarations
    advisories := advisories
    diagnostics := program.diagnostics
    errors := run.machine.errors.toList
    registers := run.machine.registers.snapshot
    memory := run.machine.memory.snapshot
    stack := run.machine.stack.reverse
    output := run.machine.output.toList
    journal := run.machine.journal.toList
    trace := trace
    suggestions := suggestions
    executed := run.executed
    steps := run.machine.steps
    halted := run.halted }

/-- Compiles, shares and runs a source. The clock gives the time at which each instruction was
done. -/
def execute (e : Engine) (clock : Nat → Nat) (source : String) : Except AdviserFailure Report := do
  let (compiled, advisories) ← e.prepare source
  let program := compiled.shared
  e.conclude source (program, advisories) ((program.machine e.limits).run program.code) clock

end Engine

/-- The value of a register after a source ran on a machine with the usual limits, or the first
error. -/
def evalRegister (source register : String) : Except ExecError Word :=
  let program := (compile source).shared
  let machine := ((program.machine {}).run program.code).machine
  match machine.errors[0]? with
  | some e => .error e
  | none => .ok (machine.registers.read register)

end LineAsm
