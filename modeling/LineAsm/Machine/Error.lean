import LineAsm.Statement.Basic

/-!
# Execution errors

An error names its cause, the line of the instruction that failed and the calls that were active,
the innermost first. A failure inside a loop body is reported on the loop, with the number of bodies
that were executed before it. Only an exhausted budget stops a run.
-/
namespace LineAsm

/-- An active call: the function and the line of the call. -/
structure Frame where
  function : String
  line : Nat
  deriving DecidableEq

/-- Why a statement could not be executed. -/
inductive Cause where
  | fault (fault : Fault)
  | undefinedFunction (name : String)
  | stackUnderflow
  | divisionByZero
  | overflow (op : Arith)
  | callDepthExceeded (limit : Nat)
  | budgetExhausted (limit : Nat)
  | inLoop (iteration : Nat) (cause : Cause)
  deriving DecidableEq

def Fault.message : Fault → String
  | .unknownCommand name => s!"unknown command '{name}'"
  | .unknownLoop kind => s!"unknown loop kind '{kind}'"
  | .malformed form defect => "malformed operand for '" ++ form.name ++ "': " ++ defect.message

namespace Cause

def message : Cause → String
  | .fault f => f.message
  | .undefinedFunction name => s!"undefined function '{name}'"
  | .stackUnderflow => "pop from an empty stack"
  | .divisionByZero => "division by zero"
  | .overflow op => "integer overflow in " ++ op.name
  | .callDepthExceeded limit => s!"call depth exceeded (limit {limit})"
  | .budgetExhausted limit => s!"execution budget of {limit} steps exhausted"
  | .inLoop iteration cause => s!"loop aborted at iteration {iteration}: " ++ cause.message

/-- The cause inside all loops. -/
def innermost : Cause → Cause
  | .inLoop _ cause => cause.innermost
  | cause => cause

/-- The numbers of the iterations around the innermost cause, the outermost loop first. -/
def iterations : Cause → List Nat
  | .inLoop iteration cause => iteration :: cause.iterations
  | _ => []

end Cause

/-- An error of one instruction. -/
structure ExecError where
  cause : Cause
  line : Nat
  trace : List Frame
  deriving DecidableEq

namespace ExecError

/-- Only an exhausted budget stops a run. -/
def isFatal (e : ExecError) : Bool :=
  match e.cause with
  | .budgetExhausted _ => true
  | _ => false

def render (e : ExecError) : String :=
  "line " ++ e.line.repr ++ ": " ++ e.cause.message ++
    String.join (e.trace.map fun f => "\n  at " ++ f.function ++ " (line " ++ f.line.repr ++ ")")

end ExecError

end LineAsm
