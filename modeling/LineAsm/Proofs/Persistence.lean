import LineAsm.Proofs.Loops
import LineAsm.Proofs.Nesting

/-!
# What survives an execution

Two promises to whoever executes an instruction, however it ends. What the machine has collected is
not taken back: output, journal and errors only get longer, and what was written once counts as
written. And a failure costs steps only: an operation looks at everything that can go wrong before
it writes, and a call that has entered its function keeps the failures of the body to itself, so a
local error means that nothing was done. Loops are the exception to the second promise, since the
bodies before the failing one have been executed.

Results:
* `Machine.Retains`: what was written is written still.
* `Action.exec_retains`, `Machine.Retains.respected`: one action, and all pieces of an execution.
* `execution_is_monotone`: what follows for one instruction, with its error.
* `Evaluates.untouched`: a local failure behind conditions and no loops, for a statement.
* `failures_are_atomic`: what follows for one instruction.
-/
namespace LineAsm

/-! ## Written places -/

/-- Every register and every cell that was written is written still. -/
structure Machine.Retains (m m' : Machine) : Prop where
  registers : ∀ r ∈ m.registers, r ∈ m'.registers
  memory : ∀ l ∈ m.memory, l ∈ m'.memory

namespace Machine.Retains

variable {m m' m'' : Machine}

theorem of_eq (hr : m'.registers = m.registers) (hm : m'.memory = m.memory) : m.Retains m' :=
  ⟨by simp [hr], by simp [hm]⟩

theorem refl (m : Machine) : m.Retains m := of_eq rfl rfl

theorem trans (h : m.Retains m') (h' : m'.Retains m'') : m.Retains m'' where
  registers r hr := h'.registers r (h.registers r hr)
  memory l hl := h'.memory l (h.memory l hl)

theorem store (m : Machine) (dest : Place) (value : Word) : m.Retains (m.store dest value) := by
  cases dest with
  | register name =>
    refine { refl m with registers := ?_ }
    intro r hr
    exact Std.ExtTreeMap.mem_insert.2 (.inr hr)
  | cell cell =>
    refine { refl m with memory := ?_ }
    intro l hl
    exact Std.ExtTreeMap.mem_insert.2 (.inr hl)

theorem tick (m : Machine) : m.Retains m.tick := of_eq rfl rfl

theorem kept (o : Outcome) : o.machine.Retains o.kept := by
  unfold Outcome.kept
  split
  · exact refl _
  · exact of_eq rfl rfl

/-- Calls are entered and left without a write. -/
theorem leave {f : String} {line : Nat} {o : Outcome} (h : (m.enter f line).Retains o.machine) :
    m.Retains o.leave.machine := ⟨h.registers, h.memory⟩

end Machine.Retains

theorem Action.exec_retains {a : Action} (ha : a.callee? = none)
    (call : String → Nat → Machine → Outcome) (line : Nat) (m : Machine) :
    m.Retains (a.exec call line m).machine := by
  cases a with
  | mov dest src =>
    have hstore := Machine.Retains.store m dest (m.value src)
    exact ⟨hstore.registers, hstore.memory⟩
  | arith op dest src =>
    simp only [exec]
    split
    · exact .store m (.register dest) _
    · split <;> exact .refl m
  | push src => exact .of_eq rfl rfl
  | pop dest =>
    simp only [exec]
    split
    · exact .refl m
    · rename_i value rest _
      have hpop : m.Retains { m with stack := rest } := .of_eq rfl rfl
      exact hpop.trans (.store _ dest value)
  | call f => cases ha
  | print items => exact .of_eq rfl rfl
  | idle c => exact .refl m
  | fault f => exact .refl m

theorem Machine.Retains.respected : Machine.Respected Machine.Retains :=
  ⟨refl, trans, tick, Action.exec_retains, leave, kept⟩

/-- **Monotone state.** However an instruction ends, output, journal and errors from before are a
prefix of those after it, the step counter has not gone back, limits, functions and active calls are
as before, and every written register and cell is written still. A local error is on the line of the
instruction, and its trace is the list of the calls that were active at the start. -/
theorem execution_is_monotone (m : Machine) (i : Instruction) :
    m.Grows (m.execute i).machine ∧ m.Retains (m.execute i).machine ∧
    ∀ e, (m.execute i).error? = some e → e.isFatal = false →
      e.line = i.line ∧ e.trace = m.frames := by
  obtain ⟨n, hn⟩ := evaluates_execute m i
  refine ⟨hn.grows, hn.relates Machine.Retains.respected, ?_⟩
  intro e he hlocal
  obtain ⟨hline, htrace⟩ := hn.local_error e he hlocal
  exact ⟨(Option.some.inj hline).symm, htrace⟩

/-! ## Local failures -/

theorem Header.isLoop_of_guard? {header : Header} {m : Machine} {guard : Guard}
    (h : header.guard? m = some guard) : header.isLoop = true := by
  cases header with
  | ifTrue c => cases h
  | _ => rfl

/-- A statement without loops that fails with a local error has passed all its conditions and has
then done nothing: one step was taken for every statement of the chain, and that is all. -/
theorem Evaluates.untouched {line n : Nat} {s : Statement} {m : Machine} {o : Outcome}
    (h : Evaluates (.statement line s) m n o) (hloop : ∀ t ∈ s.chain, t.isLoop = false)
    {e : ExecError} (he : o.error? = some e) (hlocal : e.isFatal = false) :
    o.machine = { m with steps := m.steps + s.chain.length } := by
  induction s generalizing m n o with
  | simple text a =>
    cases h with
    | exhausted hs => cases he; cases hlocal
    | action hs ha => exact ((Action.exec_effect ha _ _ _).failed e he).1
    | refused hs hf => rfl
    | called hs hf hb =>
      -- inside the function there is nobody to return a local error to
      have hline := (hb.local_error e he hlocal).1
      cases hline
  | block text header body ih =>
    obtain ⟨hheader, hbody⟩ := List.forall_mem_cons.1 hloop
    cases h with
    | exhausted hs => cases he; cases hlocal
    | skipped hs hc => cases he
    | taken hs hc hb =>
      rw [ih hb hbody he]
      show { m with steps := m.steps + 1 + body.chain.length } =
        { m with steps := m.steps + (body.chain.length + 1) }
      rw [Nat.add_assoc, Nat.add_comm 1]
    | looped hs hg hl =>
      have hheader' : header.isLoop = false := hheader
      rw [Header.isLoop_of_guard? hg] at hheader'
      cases hheader'

/-- **Atomic failures.** An instruction that has no loop at any level of nesting and fails with a
local error leaves everything as it was: registers, with those that count as written, memory, stack,
output, journal, errors, functions and active calls. Only the step counter has moved, by one for
each statement of the chain. -/
theorem failures_are_atomic (m : Machine) {i : Instruction}
    (hloop : ∀ s ∈ i.statement.chain, s.isLoop = false) {e : ExecError}
    (he : (m.execute i).error? = some e) (hlocal : e.isFatal = false) :
    (m.execute i).machine = { m with steps := m.steps + i.statement.chain.length } ∧
    m.steps < (m.execute i).machine.steps := by
  obtain ⟨n, hn⟩ := evaluates_execute m i
  have hmachine := hn.untouched hloop he hlocal
  have hlength := i.statement.one_le_length_chain
  refine ⟨hmachine, ?_⟩
  rw [hmachine]
  show m.steps < m.steps + i.statement.chain.length
  omega

/-- A pop into a cell behind two conditions. -/
def guardedPop : Instruction :=
  ⟨4, .block "if n then if n > 1 then pop a[n]" (.ifTrue (.nonzero countdownOperand))
    (.block "if n > 1 then pop a[n]" (.ifTrue (.compare countdownOperand .gt (.literal 1)))
      (.simple "pop a[n]" (.pop (.cell ⟨"a", .index (.register "n")⟩))))⟩

/-- Both conditions hold and the stack is empty: three steps are taken, and nothing else changes. -/
theorem failures_are_atomic_pop :
    let m := (countdownMachine []).enter "f" 3
    (∀ s ∈ guardedPop.statement.chain, s.isLoop = false) ∧
    (m.execute guardedPop).error? = some ⟨.stackUnderflow, 4, [⟨"f", 3⟩]⟩ ∧
    (m.execute guardedPop).machine = { m with steps := 3 } := by
  intro m
  have hloop : ∀ s ∈ guardedPop.statement.chain, s.isLoop = false := by decide
  have herror : (m.execute guardedPop).error? = some ⟨.stackUnderflow, 4, [⟨"f", 3⟩]⟩ := by
    decide +kernel
  exact ⟨hloop, herror, (failures_are_atomic m hloop herror rfl).1⟩

/-- A loop that fails in its second iteration has popped in its first. -/
example :
    let o := (countdownMachine [5]).execute
      ⟨4, .block "loop for n pop n" (.times countdownOperand) countdownPop⟩
    o.error? = some ⟨.inLoop 1 .stackUnderflow, 4, []⟩ ∧ o.machine.stack = [] := by
  decide +kernel

end LineAsm
