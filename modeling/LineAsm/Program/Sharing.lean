import LineAsm.Program.Basic

/-!
# Sharing equal statements

An instruction holds a copy of its statement. Equal statements may lie in many copies, and many
instructions may hold the same copy; a number tells the copies of one statement apart.

A pool keeps one copy of every statement it has met, its representative: the copy that came first.
An instruction that is shared gives up its copy for the representative. The pool counts how often
that made a difference, so an instruction that holds the representative already does not count.
Only copies change hands: lines, order and statements stay.
-/
namespace LineAsm

/-! ## Copies -/

/-- A copy of a statement. Copies of one statement are told apart by their numbers. -/
structure Copy where
  number : Nat
  statement : Statement
  deriving DecidableEq

/-- An instruction and the copy of its statement that it holds. -/
structure HeldInstruction where
  line : Nat
  copy : Copy
  deriving DecidableEq

/-- The instruction, whichever copy it holds. -/
def HeldInstruction.plain (i : HeldInstruction) : Instruction := ⟨i.line, i.copy.statement⟩

/-- Puts the statement of an instruction into a copy of its own. The next copy has the next
number. -/
def Instruction.hold (number : Nat) (i : Instruction) : Nat × HeldInstruction :=
  (number + 1, ⟨i.line, ⟨number, i.statement⟩⟩)

/-! ## Programs by their parts -/

section
variable {σ α β : Type}

/-- Does something to every element, a state going from one to the next. -/
def each (act : σ → α → σ × β) (s : σ) : List α → σ × List β
  | [] => (s, [])
  | a :: rest =>
    let (s, b) := act s a
    let (s, bs) := each act s rest
    (s, b :: bs)

/-- The main code of a program and its functions in the order of their names. -/
structure Parts (α : Type) where
  code : List α
  functions : List (String × List α)

def Program.parts (p : Program) : Parts Instruction := ⟨p.code, p.functions.toList⟩

/-- The program with other code and other functions. -/
def Program.withParts (p : Program) (parts : Parts Instruction) : Program :=
  { p with code := parts.code, functions := .ofList parts.functions }

theorem Program.withParts_parts (p : Program) : p.withParts p.parts = p := by
  have hfunctions : (.ofList p.functions.toList : Functions) = p.functions := by
    rw [Std.ExtTreeMap.ofList_eq_insertMany_empty, insertMany_toList]
  unfold Program.withParts Program.parts
  rw [hfunctions]

namespace Parts

def map (f : α → β) (p : Parts α) : Parts β :=
  ⟨p.code.map f, p.functions.map (Prod.map id (List.map f))⟩

/-- Does something to every instruction of a function. -/
def eachInFunction (act : σ → α → σ × β) (s : σ) (function : String × List α) :
    σ × String × List β :=
  let (s, body) := LineAsm.each act s function.2
  (s, function.1, body)

/-- Does something to every instruction, first of the main code and then of every function. -/
def each (act : σ → α → σ × β) (s : σ) (p : Parts α) : σ × Parts β :=
  let (s, code) := LineAsm.each act s p.code
  let (s, functions) := LineAsm.each (eachInFunction act) s p.functions
  (s, ⟨code, functions⟩)

end Parts

end

/-! ## Pools -/

/-- The representatives, and how many instructions were given one in place of another copy. -/
structure Pool where
  representatives : Array Copy := #[]
  replaced : Nat := 0

namespace Pool

/-- The representative of a statement. -/
def representative? (p : Pool) (s : Statement) : Option Copy :=
  p.representatives.find? fun c => c.statement = s

/-- Gives an instruction the representative of its statement. The copy of a statement that was never
met becomes its representative. -/
def intern (p : Pool) (i : HeldInstruction) : Pool × HeldInstruction :=
  match p.representative? i.copy.statement with
  | some c =>
    ({ p with replaced := if c = i.copy then p.replaced else p.replaced + 1 }, { i with copy := c })
  | none => ({ p with representatives := p.representatives.push i.copy }, i)

/-- Shares the statements of a list of instructions. -/
def shareCode (p : Pool) (code : List HeldInstruction) : Pool × List HeldInstruction :=
  each intern p code

/-- Shares the statements of the main code and then of every function. -/
def shareProgram (p : Pool) (program : Parts HeldInstruction) : Pool × Parts HeldInstruction :=
  program.each intern p

end Pool

/-- The program with its statements shared by a new pool. Each instruction brings a copy of its own,
and a machine does not look at the copies. -/
def Program.shared (p : Program) : Program :=
  let held := (p.parts.each Instruction.hold 0).2
  p.withParts ((Pool.shareProgram {} held).2.map HeldInstruction.plain)

end LineAsm
