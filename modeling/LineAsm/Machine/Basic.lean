import LineAsm.Machine.Error
import LineAsm.Machine.Store

/-!
# The machine

A machine holds registers, memory, a stack, functions and the calls that are active, and it collects
what it prints, the moves it makes and the errors it meets. Its limits bound the statements it
executes in its whole life and the depth of its calls.
-/
namespace LineAsm

/-- The bounds on a machine. -/
structure Limits where
  /-- How many statements may be executed, those in loops and functions included. -/
  maxSteps : Nat := 1000000
  /-- How deep calls may nest. -/
  maxCallDepth : Nat := 256
  deriving DecidableEq

/-- No limit lets calls nest deeper than this. -/
def greatestCallDepth : Nat := 512

/-- The depth that calls may really reach. -/
def Limits.callDepth (l : Limits) : Nat := min l.maxCallDepth greatestCallDepth

/-- A move that was made. -/
structure Move where
  dest : Place
  value : Word
  deriving DecidableEq

def Move.render (m : Move) : String := "mov: " ++ m.dest.render ++ " = " ++ m.value.render

/-- The state of a machine. -/
structure Machine where
  limits : Limits := {}
  registers : Registers := ∅
  memory : Memory := ∅
  /-- The top of the stack first. -/
  stack : List Word := []
  functions : Functions := ∅
  /-- The innermost call first. -/
  frames : List Frame := []
  steps : Nat := 0
  output : Array String := #[]
  journal : Array Move := #[]
  errors : Array ExecError := #[]

/-- What executing a statement leaves: the machine and, if it failed, the error. -/
structure Outcome where
  machine : Machine
  error? : Option ExecError := none

namespace Machine

/-- Defines a function, in place of an older one of that name. -/
def define (m : Machine) (name : String) (body : List Instruction) : Machine :=
  { m with functions := m.functions.insert name body }

/-- Defines the functions of a program. -/
def load (m : Machine) (p : Program) : Machine :=
  p.functions.toList.foldl (fun m (name, body) => m.define name body) m

/-- The slot that an address means now. -/
def slot (m : Machine) : Address → Slot
  | .index (.literal value) => .index value
  | .index (.register name) => .index (m.registers.read name)
  | .key key => .key key

/-- The value of a place. -/
def fetch (m : Machine) : Place → Word
  | .register name => m.registers.read name
  | .cell cell => m.memory.read cell.container (m.slot cell.address)

/-- The value of an operand. -/
def value (m : Machine) : Operand → Word
  | .literal value => value
  | .place place => m.fetch place

/-- Writes a place. -/
def store (m : Machine) (dest : Place) (value : Word) : Machine :=
  match dest with
  | .register name => { m with registers := m.registers.write name value }
  | .cell cell =>
    { m with memory := m.memory.write cell.container (m.slot cell.address) value }

/-- Whether a condition holds now. -/
def holds (m : Machine) : Condition → Bool
  | .nonzero operand => decide (m.value operand ≠ 0)
  | .compare lhs comparison rhs => comparison.holds (m.value lhs) (m.value rhs)

/-- An item of a print statement as text. -/
def itemText (m : Machine) : PrintItem → String
  | .text text => text
  | .value operand => (m.value operand).render

/-- The error with a cause on a line, under the active calls. -/
def errorAt (m : Machine) (line : Nat) (cause : Cause) : ExecError := ⟨cause, line, m.frames⟩

/-- Fails and leaves the machine as it is. -/
def fail (m : Machine) (line : Nat) (cause : Cause) : Outcome := ⟨m, some (m.errorAt line cause)⟩

/-- Keeps an error. -/
def record (m : Machine) (e : ExecError) : Machine := { m with errors := m.errors.push e }

/-- How many more statements the budget allows. -/
def budget (m : Machine) : Nat := m.limits.maxSteps - m.steps

end Machine

end LineAsm
