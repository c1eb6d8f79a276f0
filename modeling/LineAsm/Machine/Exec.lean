import LineAsm.Machine.Basic

/-!
# Executing statements

Every statement first takes a step of the budget; without one it fails for good. Statements are
executed by recursion on their nesting, and calls by recursion on the depth that is left, so a call
at the limit fails. A loop over a count is a recursion on the count. The other two loops recur on
the budget that is left: every body takes a step, so the budget is gone before the bound is.

A statement that fails leaves the machine as it was when it failed. A failure in a loop body ends
the loop; a failure in a function is kept, and the function goes on. An exhausted budget ends
everything, unchanged by the loops and calls around it.
-/
namespace LineAsm

/-! ## Steps and actions -/

/-- Takes one step of the budget and goes on, or fails. -/
@[inline] def Machine.withStep (m : Machine) (line : Nat) (next : Machine → Outcome) : Outcome :=
  if m.limits.maxSteps ≤ m.steps then m.fail line (.budgetExhausted m.limits.maxSteps)
  else next { m with steps := m.steps + 1 }

/-- Executes an action. `call` is told the function and the line. -/
def Action.exec (call : String → Nat → Machine → Outcome) (line : Nat) (m : Machine) :
    Action → Outcome
  | .mov dest src =>
    let value := m.value src
    let m := m.store dest value
    ⟨{ m with journal := m.journal.push ⟨dest, value⟩ }, none⟩
  | .arith op dest src =>
    match op.apply (m.registers.read dest) (m.value src) with
    | some value => ⟨{ m with registers := m.registers.write dest value }, none⟩
    | none =>
      if op = .div ∧ m.value src = 0 then m.fail line .divisionByZero
      else m.fail line (.overflow op)
  | .push src => ⟨{ m with stack := m.value src :: m.stack }, none⟩
  | .pop dest =>
    match m.stack with
    | [] => m.fail line .stackUnderflow
    | value :: rest => ⟨{ m with stack := rest }.store dest value, none⟩
  | .call function => call function line m
  | .print items =>
    ⟨{ m with output := m.output.push (" ".intercalate (items.map m.itemText)) }, none⟩
  | .idle _ => ⟨m, none⟩
  | .fault f => m.fail line (.fault f)

/-! ## Loops -/

/-- Reports the failure of a loop body on the loop. An exhausted budget passes unchanged. -/
def Outcome.inLoop (line iteration : Nat) (machine : Machine) (e : ExecError) : Outcome :=
  if e.isFatal then ⟨machine, some e⟩ else machine.fail line (.inLoop iteration e.cause)

/-- Executes `body` a number of times. -/
def repeatTimes (body : Machine → Outcome) (line : Nat) :
    (count iteration : Nat) → Machine → Outcome
  | 0, _, m => ⟨m, none⟩
  | count + 1, iteration, m =>
    match body m with
    | ⟨m, none⟩ => repeatTimes body line count (iteration + 1) m
    | ⟨m, some e⟩ => .inLoop line iteration m e

/-- Executes `body` as long as a condition holds before it. The bound is the budget at the start:
a body that succeeds has taken a step, so with no budget left the last body fails. -/
def repeatWhile (body : Machine → Outcome) (condition : Condition) (line : Nat) :
    (bound iteration : Nat) → Machine → Outcome
  | bound, iteration, m =>
    if m.holds condition then
      match body m with
      | ⟨m, none⟩ =>
        match bound with
        | 0 => ⟨m, none⟩
        | bound + 1 => repeatWhile body condition line bound (iteration + 1) m
      | ⟨m, some e⟩ => .inLoop line iteration m e
    else ⟨m, none⟩

/-- Executes `body` once, and then as long as a condition holds. -/
def repeatDoWhile (body : Machine → Outcome) (condition : Condition) (line : Nat) (m : Machine) :
    Outcome :=
  match body m with
  | ⟨m, none⟩ => repeatWhile body condition line m.budget 1 m
  | ⟨m, some e⟩ => .inLoop line 0 m e

/-! ## Statements and calls -/

/-- Executes a statement. -/
def Statement.exec (call : String → Nat → Machine → Outcome) (line : Nat) :
    Statement → Machine → Outcome
  | simple _ action, m => m.withStep line fun m => action.exec call line m
  | block _ header body, m => m.withStep line fun m =>
    match header with
    | .ifTrue condition => if m.holds condition then body.exec call line m else ⟨m, none⟩
    | .times count =>
      repeatTimes (body.exec call line) line (m.value count).toInt.toNat 0 m
    | .whileTrue condition =>
      repeatWhile (body.exec call line) condition line m.budget 0 m
    | .doWhile condition => repeatDoWhile (body.exec call line) condition line m

/-- Executes the body of a function. Local failures are kept and passed over. -/
def execBody (call : String → Nat → Machine → Outcome) : List Instruction → Machine → Outcome
  | [], m => ⟨m, none⟩
  | i :: rest, m =>
    match i.statement.exec call i.line m with
    | ⟨m, none⟩ => execBody call rest m
    | ⟨m, some e⟩ => if e.isFatal then ⟨m, some e⟩ else execBody call rest (m.record e)

namespace Machine

/-- Calls a function when `room` more calls may be active. -/
def callWithin : (room : Nat) → String → Nat → Machine → Outcome
  | 0, _, line, m => m.fail line (.callDepthExceeded m.limits.callDepth)
  | room + 1, function, line, m =>
    match m.functions.get? function with
    | none => m.fail line (.undefinedFunction function)
    | some body =>
      match execBody (callWithin room) body { m with frames := ⟨function, line⟩ :: m.frames } with
      | ⟨m, e⟩ => ⟨{ m with frames := m.frames.tail }, e⟩

/-- How many more calls may be active. -/
def room (m : Machine) : Nat := m.limits.callDepth - m.frames.length

/-- Calls a function. -/
def call (m : Machine) (function : String) (line : Nat) : Outcome :=
  callWithin m.room function line m

/-- Executes an instruction. -/
def execute (m : Machine) (i : Instruction) : Outcome :=
  i.statement.exec (callWithin m.room) i.line m

end Machine

/-! ## Runs -/

/-- A run so far. -/
structure Run where
  machine : Machine
  /-- The executed instructions, the first one first. -/
  trace : Array Instruction := #[]
  /-- Whether the budget ended the run. -/
  halted : Bool := false

namespace Run

def executed (r : Run) : Nat := r.trace.size

/-- Executes the next instruction and keeps its error. A halted run stays as it is. -/
def step : Run → Instruction → Run
  | ⟨m, trace, true⟩, _ => ⟨m, trace, true⟩
  | ⟨m, trace, false⟩, i =>
    match m.execute i with
    | ⟨m, none⟩ => ⟨m, trace.push i, false⟩
    | ⟨m, some e⟩ => ⟨m.record e, trace.push i, e.isFatal⟩

end Run

/-- Runs a list of instructions. Only an exhausted budget stops the run. -/
def Machine.run (m : Machine) (code : List Instruction) : Run := code.foldl Run.step ⟨m, #[], false⟩

end LineAsm
