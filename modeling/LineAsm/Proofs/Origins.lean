import LineAsm.Engine
import LineAsm.Proofs.Errors
import LineAsm.Proofs.Reachable

/-!
# Where errors come from

An error is made while the machine runs, but what it can say is fixed by the program: its trace is a
path of calls that the program writes down, its line carries an instruction of the code at the end
of that path, and its cause is one that an action of that instruction can raise. Loops wrap the
cause and calls pass the error on; neither changes where it came from.

Results:
* `Program.CallPath p calls code`: the calls that can be active in a program, with the code that is
  executed under them.
* `Program.Raises p a cause`: the causes with which an action can fail.
* `Evaluates.explained`, `run_explained`: every error that a task returns or keeps is explained by
  the program; a run keeps no others.
* `traces_are_call_paths`, `errors_are_written_down`: what follows for traces and for causes.
-/
namespace LineAsm

/-! ## What a program writes down -/

/-- The action of a statement that is not a block. -/
def Statement.action? : Statement → Option Action
  | simple _ action => some action
  | block .. => none

/-- The actions in a statement, at any level of nesting. -/
def Statement.actions (s : Statement) : List Action := s.chain.filterMap action?

@[simp] theorem Statement.actions_simple (text : String) (a : Action) :
    (simple text a).actions = [a] := rfl

@[simp] theorem Statement.actions_block (text : String) (header : Header) (body : Statement) :
    (block text header body).actions = body.actions := rfl

namespace Program

/-- The instructions of the main code and of all functions. -/
def instructions (p : Program) : List Instruction :=
  p.code ++ p.functions.toList.flatMap Prod.snd

/-- The calls that can be active, the innermost first, and the code that is executed under them.
Under no call that is the main code; under a call that an instruction of the code around it writes
down, at any level of nesting, it is the body of the function. -/
inductive CallPath (p : Program) : List Frame → List Instruction → Prop
  | main : CallPath p [] p.code
  | call {calls : List Frame} {code body : List Instruction} {i : Instruction} {f : String}
      (outer : CallPath p calls code) (mem : i ∈ code) (calls_f : .call f ∈ i.statement.actions)
      (body_f : p.functions[f]? = some body) : CallPath p (⟨f, i.line⟩ :: calls) body

/-- The causes with which an action can fail. -/
inductive Raises (p : Program) : Action → Cause → Prop
  | fault (f : Fault) : Raises p (.fault f) (.fault f)
  | undefined {f : String} (h : f ∉ p.functions) : Raises p (.call f) (.undefinedFunction f)
  | depth (f : String) (limit : Nat) : Raises p (.call f) (.callDepthExceeded limit)
  | underflow (dest : Place) : Raises p (.pop dest) .stackUnderflow
  | zero (dest : String) (src : Operand) : Raises p (.arith .div dest src) .divisionByZero
  | overflow (op : Arith) (dest : String) (src : Operand) :
      Raises p (.arith op dest src) (.overflow op)

/-- The error was met on an instruction of the code under its calls: the budget was exhausted there,
or an action of the instruction failed. -/
def Explains (p : Program) (e : ExecError) : Prop :=
  ∃ code, p.CallPath e.trace code ∧ ∃ i ∈ code, i.line = e.line ∧
    ((∃ limit, e.cause = .budgetExhausted limit) ∨
      ∃ a ∈ i.statement.actions, p.Raises a e.cause.innermost)

theorem CallPath.subset {p : Program} {calls : List Frame} {code : List Instruction}
    (h : p.CallPath calls code) : code ⊆ p.instructions := by
  intro i hi
  unfold instructions
  rw [List.mem_append]
  cases h with
  | main => exact .inl hi
  | call _ _ _ body_f =>
    right
    rw [List.mem_flatMap]
    exact ⟨_, Std.ExtTreeMap.mem_toList_iff_getElem?_eq_some.2 body_f, hi⟩

end Program

/-! ## Actions -/

/-- An action that calls nothing fails with a cause of its own. -/
theorem Action.exec_raises (p : Program) {a : Action} (ha : a.callee? = none)
    {call : String → Nat → Machine → Outcome} {line : Nat} {m : Machine} {e : ExecError}
    (he : (a.exec call line m).error? = some e) : p.Raises a e.cause.innermost := by
  cases a with
  | mov | push | print | idle => cases he
  | call f => cases ha
  | fault f => cases he; exact .fault f
  | pop dest =>
    simp only [exec] at he
    split at he <;> cases he
    exact .underflow dest
  | arith op dest src =>
    simp only [exec] at he
    split at he
    · cases he
    · split at he
      · rename_i hdiv
        cases he
        rw [hdiv.1]
        exact .zero dest src
      · cases he
        exact .overflow op dest src

/-- A call that finds nothing to execute fails with a cause of its own. -/
theorem Machine.entry_raises {p : Program} {m : Machine} (hf : m.functions = p.functions)
    {f : String} {cause : Cause} (h : m.entry f = .error cause) :
    p.Raises (.call f) cause.innermost := by
  rcases entry_error_iff.1 h with ⟨-, rfl⟩ | ⟨-, hnone, rfl⟩
  · exact .depth f _
  · rw [hf] at hnone
    exact .undefined (by simp [Std.ExtTreeMap.mem_iff_isSome_getElem?, hnone])

theorem Machine.entry_body {p : Program} {m : Machine} (hf : m.functions = p.functions)
    {f : String} {body : List Instruction} (h : m.entry f = .ok body) :
    p.functions[f]? = some body := by
  rw [← hf]
  exact (entry_ok_iff.1 h).2

/-! ## Tasks -/

/-- All kept errors are explained. -/
def Machine.Explained (p : Program) (m : Machine) : Prop := ∀ e ∈ m.errors.toList, p.Explains e

/-- All kept errors are explained, and so is the returned one. -/
def Outcome.Explained (p : Program) (o : Outcome) : Prop :=
  o.machine.Explained p ∧ ∀ e, o.error? = some e → p.Explains e

theorem Outcome.Explained.kept {p : Program} {o : Outcome} (h : o.Explained p) :
    o.kept.Explained p := by
  obtain ⟨m, error⟩ := o
  cases error with
  | none => exact h.1
  | some e =>
    intro e' he'
    simp only [kept_some, Machine.record, Array.toList_push, List.mem_append,
      List.mem_singleton] at he'
    rcases he' with he' | rfl
    · exact h.1 e' he'
    · exact h.2 e' rfl

theorem Outcome.Explained.fail {p : Program} {m : Machine} {line : Nat} {cause : Cause}
    (hm : m.Explained p) (he : p.Explains (m.errorAt line cause)) :
    (m.fail line cause).Explained p := by
  refine ⟨hm, ?_⟩
  intro e h
  cases h
  exact he

/-- The task is a piece of the code: its statements are nested in instructions of the code, and on
their lines. -/
def Task.Within (code : List Instruction) : Task → Prop
  | .statement line s => ∃ i ∈ code, i.line = line ∧ s.actions ⊆ i.statement.actions
  | .loop line _ body _ => ∃ i ∈ code, i.line = line ∧ body.actions ⊆ i.statement.actions
  | .code body => body ⊆ code

/-- **Origin of errors.** A task that belongs to the code under the active calls returns and keeps
explained errors only. -/
theorem Evaluates.explained {p : Program} {t : Task} {m : Machine} {n : Nat} {o : Outcome}
    (h : Evaluates t m n o) (hf : m.functions = p.functions) (hm : m.Explained p)
    {code : List Instruction} (hp : p.CallPath m.frames code) (ht : t.Within code) :
    o.Explained p := by
  induction h generalizing code with
  | exhausted hs =>
    obtain ⟨i, hi, hline, -⟩ := ht
    exact .fail hm ⟨code, hp, i, hi, hline, .inl ⟨_, rfl⟩⟩
  | @action line text a m call hs ha =>
    obtain ⟨i, hi, hline, hsub⟩ := ht
    have heff := Action.exec_effect ha call line m.tick
    refine ⟨?_, ?_⟩
    · unfold Machine.Explained
      rw [heff.errors]
      exact hm
    · intro e he
      obtain ⟨-, -, hl, htr⟩ := heff.failed e he
      refine ⟨code, htr ▸ hp, i, hi, hline.trans hl.symm, .inr ⟨a, hsub (by simp), ?_⟩⟩
      exact Action.exec_raises p ha he
  | refused hs he =>
    obtain ⟨i, hi, hline, hsub⟩ := ht
    exact .fail hm ⟨code, hp, i, hi, hline,
      .inr ⟨_, hsub (by simp), Machine.entry_raises (m := Machine.tick _) hf he⟩⟩
  | @called line text f m body n o hs he _ ih =>
    -- the call goes one step further along the path; what comes back is explained already
    obtain ⟨i, hi, rfl, hsub⟩ := ht
    have hbody := Machine.entry_body (m := m.tick) hf he
    exact ih hf hm (.call hp hi (hsub (by simp)) hbody) (List.Subset.refl body)
  | skipped hs hc => exact ⟨hm, by simp⟩
  | taken hs hc _ ih => exact ih hf hm hp ht
  | looped hs hg _ ih => exact ih hf hm hp ht
  | loopEnds hg => exact ⟨hm, by simp⟩
  | loopGoes hg hb _ ihb ihl =>
    obtain ⟨hm', -⟩ := ihb hf hm hp ht
    exact ihl (hb.grows.functions.trans hf) hm' (hb.grows.frames ▸ hp) ht
  | @loopFails line guard body k m m' n e hg hb ih =>
    obtain ⟨hm', he⟩ := ih hf hm hp ht
    cases hfatal : e.isFatal with
    | true =>
      rw [Outcome.inLoop_fatal hfatal]
      exact ⟨hm', he⟩
    | false =>
      -- the error is made anew on the loop, under the same calls and on the same line
      obtain ⟨hline, htrace⟩ := hb.local_error e rfl hfatal
      simp only [Task.line?, Option.some.injEq] at hline
      obtain ⟨code', hp', i, hi, hl, hcause⟩ := he e rfl
      rw [Outcome.inLoop_local hfatal]
      refine .fail hm' ⟨code', ?_, i, hi, hl.trans hline.symm, .inr ?_⟩
      · have hframes : m'.frames = e.trace := hb.grows.frames.trans htrace.symm
        rw [← hframes] at hp'
        exact hp'
      · rcases hcause with ⟨limit, hlimit⟩ | hcause
        · simp [ExecError.isFatal, hlimit] at hfatal
        · exact hcause
  | codeEnds => exact ⟨hm, by simp⟩
  | @codeGoes i rest m n n' o o' hi hfatal _ ihi ihr =>
    have ho := ihi hf hm hp ⟨i, ht List.mem_cons_self, rfl, List.Subset.refl _⟩
    have hgrows := hi.grows.trans (.kept o)
    exact ihr (hgrows.functions.trans hf) ho.kept (hgrows.frames ▸ hp)
      fun j hj => ht (List.mem_cons_of_mem i hj)
  | codeStops _ hfatal ih =>
    exact ih hf hm hp ⟨_, ht List.mem_cons_self, rfl, List.Subset.refl _⟩

/-! ## Runs -/

theorem Machine.load_functions (m : Machine) (p : Program) :
    (m.load p).functions = m.functions.insertMany p.functions.toList := by
  unfold load
  induction p.functions.toList generalizing m with
  | nil => rfl
  | cons f rest ih =>
    obtain ⟨name, body⟩ := f
    rw [List.foldl_cons, ih, Std.ExtTreeMap.insertMany_cons]
    rfl

/-- A fresh machine has the functions of its program. -/
theorem Program.machine_functions (p : Program) (limits : Limits) :
    (p.machine limits).functions = p.functions := by
  unfold Program.machine
  rw [Machine.load_functions]
  exact insertMany_toList p.functions

/-- One instruction of the main code on a machine at rest. -/
theorem Run.step_explained {p : Program} {r : Run} (hf : r.machine.functions = p.functions)
    (hfr : r.machine.frames = []) (hm : r.machine.Explained p) {i : Instruction} (hi : i ∈ p.code) :
    (r.step i).machine.Explained p := by
  obtain ⟨m, trace, halted⟩ := r
  cases halted with
  | true => exact hm
  | false =>
    obtain ⟨n, hn⟩ := evaluates_execute m i
    rw [Run.step_live]
    have hp : p.CallPath m.frames p.code := by
      rw [hfr]
      exact .main
    exact (hn.explained hf hm hp ⟨i, hi, rfl, List.Subset.refl _⟩).kept

theorem run_explained (p : Program) (limits : Limits) :
    ((p.machine limits).run p.code).machine.Explained p := by
  suffices h : ∀ code ⊆ p.code, ∀ r : Run, r.machine.functions = p.functions →
      r.machine.frames = [] → r.machine.Explained p →
      (code.foldl Run.step r).machine.Explained p by
    obtain ⟨functions, hload⟩ := Machine.load_eq { limits } p
    refine h p.code (List.Subset.refl _) ⟨_, #[], false⟩ (p.machine_functions limits) ?_ ?_
    · simp [Program.machine, hload]
    · simp [Program.machine, hload, Machine.Explained]
  intro code
  induction code with
  | nil => intro _ r _ _ hm; exact hm
  | cons i rest ih =>
    intro hsub r hf hfr hm
    obtain ⟨hi, hrest⟩ := List.cons_subset.1 hsub
    have hgrows := (r.step_grows i).1
    exact ih hrest _ (hgrows.functions.trans hf) (hgrows.frames.trans hfr)
      (Run.step_explained hf hfr hm hi)

/-! ## Traces -/

/-- **Traces are call paths.** Whatever the limits, every error that a run of a program keeps has a
path of calls of the program as its trace: from the main code, each call is written in an
instruction of the code that the calls around it lead to, on the line that the trace names. The line
of the error carries an instruction of the code at the end of the path. -/
theorem traces_are_call_paths (p : Program) (limits : Limits) :
    ∀ e ∈ ((p.machine limits).run p.code).machine.errors.toList,
      ∃ code, p.CallPath e.trace code ∧ ∃ i ∈ code, i.line = e.line := by
  intro e he
  obtain ⟨code, hp, i, hi, hline, -⟩ := run_explained p limits e he
  exact ⟨code, hp, i, hi, hline⟩

/-- A call below a condition in a called function, and a loop that fails in the innermost one. -/
def nestedCalls : Program :=
  compile
    "declare function g\nloop for 2 pop r\nend\ndeclare function f\nif 1 then call g\nend\ncall f"

/-- The loop is reported under both calls; with four steps the budget ends there too. -/
theorem traces_are_call_paths_nested :
    (⟨.inLoop 0 .stackUnderflow, 2, [⟨"g", 5⟩, ⟨"f", 7⟩]⟩ : ExecError) ∈
      ((nestedCalls.machine {}).run nestedCalls.code).machine.errors.toList ∧
    (⟨.budgetExhausted 4, 2, [⟨"g", 5⟩, ⟨"f", 7⟩]⟩ : ExecError) ∈
      ((nestedCalls.machine ⟨4, 256⟩).run nestedCalls.code).machine.errors.toList ∧
    ∃ code, nestedCalls.CallPath [⟨"g", 5⟩, ⟨"f", 7⟩] code ∧ ∃ i ∈ code, i.line = 2 := by
  have hlocal : (⟨.inLoop 0 .stackUnderflow, 2, [⟨"g", 5⟩, ⟨"f", 7⟩]⟩ : ExecError) ∈
      ((nestedCalls.machine {}).run nestedCalls.code).machine.errors.toList := by decide +kernel
  exact ⟨hlocal, by decide +kernel, traces_are_call_paths nestedCalls {} _ hlocal⟩

/-! ## Causes -/

/-- The causes that depend on the values, the calls and the steps of a run. -/
def Cause.isDynamic : Cause → Bool
  | .stackUnderflow | .divisionByZero | .overflow _ => true
  | .callDepthExceeded _ | .budgetExhausted _ => true
  | .fault _ | .undefinedFunction _ | .inLoop .. => false

/-- The action is no fault, and a function that it calls is defined. -/
def Action.isSound (functions : Functions) : Action → Bool
  | .fault _ => false
  | .call f => functions.contains f
  | _ => true

/-- All actions of the program are sound, at every level of nesting. -/
def Program.isWellFormed (p : Program) : Bool :=
  p.instructions.all fun i => i.statement.actions.all (·.isSound p.functions)

theorem Program.Raises.isDynamic {p : Program} {a : Action} {cause : Cause} (h : p.Raises a cause)
    (ha : a.isSound p.functions = true) : cause.isDynamic = true := by
  cases h with
  | fault f => cases ha
  | undefined hf => exact absurd ha hf
  | depth | underflow | zero | overflow => rfl

/-- The innermost cause of an explained error, with the instruction that raised it. -/
theorem Program.Explains.raised {p : Program} {e : ExecError} (h : p.Explains e) :
    (∃ limit, e.cause.innermost = .budgetExhausted limit) ∨
      ∃ i ∈ p.instructions, i.line = e.line ∧
        ∃ a ∈ i.statement.actions, p.Raises a e.cause.innermost := by
  obtain ⟨code, hp, i, hi, hline, ⟨limit, hlimit⟩ | hraise⟩ := h
  · left
    exact ⟨limit, by rw [hlimit]; rfl⟩
  · right
    exact ⟨i, hp.subset hi, hline, hraise⟩

/-- **Errors are written down.** A run of a program meets a fault only where the program has it, and
an undefined function only where the program calls it, both on the line of the error. So the errors
of a well-formed program come from the values, the calls and the steps of its run alone. -/
theorem errors_are_written_down (p : Program) (limits : Limits) :
    let errors := ((p.machine limits).run p.code).machine.errors.toList
    (∀ e ∈ errors, ∀ f, e.cause.innermost = .fault f →
      ∃ i ∈ p.instructions, i.line = e.line ∧ .fault f ∈ i.statement.actions) ∧
    (∀ e ∈ errors, ∀ f, e.cause.innermost = .undefinedFunction f →
      f ∉ p.functions ∧
      ∃ i ∈ p.instructions, i.line = e.line ∧ .call f ∈ i.statement.actions) ∧
    (p.isWellFormed = true → ∀ e ∈ errors, e.cause.innermost.isDynamic = true) := by
  intro errors
  have hraised := fun e he => (run_explained p limits e he).raised
  refine ⟨?_, ?_, ?_⟩
  · intro e he f hf
    rcases hraised e he with ⟨limit, hlimit⟩ | ⟨i, hi, hline, a, ha, hr⟩
    · rw [hf] at hlimit; cases hlimit
    · rw [hf] at hr
      cases hr
      exact ⟨i, hi, hline, ha⟩
  · intro e he f hf
    rcases hraised e he with ⟨limit, hlimit⟩ | ⟨i, hi, hline, a, ha, hr⟩
    · rw [hf] at hlimit; cases hlimit
    · rw [hf] at hr
      cases hr with
      | undefined hundef => exact ⟨hundef, i, hi, hline, ha⟩
  · intro hwf e he
    rcases hraised e he with ⟨limit, hlimit⟩ | ⟨i, hi, -, a, ha, hr⟩
    · rw [hlimit]; rfl
    · have hsound := List.all_eq_true.1 (List.all_eq_true.1 hwf i hi) a ha
      exact hr.isDynamic hsound

/-- A fault in a loop of a function, and a call of a function that is nowhere. -/
def faultyProgram : Program :=
  compile "declare function f\nloop for 2 jump r\nend\ncall f\nif 1 then call g"

/-- Both errors are found in the program; the one with nested calls is well-formed. -/
theorem errors_are_written_down_faulty :
    ((faultyProgram.machine {}).run faultyProgram.code).machine.errors.toList =
      [⟨.inLoop 0 (.fault (.unknownCommand "jump")), 2, [⟨"f", 4⟩]⟩,
       ⟨.undefinedFunction "g", 5, []⟩] ∧
    (∃ i ∈ faultyProgram.instructions, i.line = 2 ∧
      .fault (.unknownCommand "jump") ∈ i.statement.actions) ∧
    ("g" ∉ faultyProgram.functions ∧
      ∃ i ∈ faultyProgram.instructions, i.line = 5 ∧ .call "g" ∈ i.statement.actions) ∧
    nestedCalls.isWellFormed = true ∧
    ∀ e ∈ ((nestedCalls.machine {}).run nestedCalls.code).machine.errors.toList,
      e.cause.innermost.isDynamic = true := by
  obtain ⟨hfault, hcall, -⟩ := errors_are_written_down faultyProgram {}
  obtain ⟨-, -, hdynamic⟩ := errors_are_written_down nestedCalls {}
  have herrors : ((faultyProgram.machine {}).run faultyProgram.code).machine.errors.toList =
      [⟨.inLoop 0 (.fault (.unknownCommand "jump")), 2, [⟨"f", 4⟩]⟩,
       ⟨.undefinedFunction "g", 5, []⟩] := by decide +kernel
  have hwf : nestedCalls.isWellFormed = true := by decide +kernel
  rw [herrors] at hfault hcall
  exact ⟨herrors, hfault _ List.mem_cons_self _ rfl,
    hcall _ (List.mem_cons_of_mem _ List.mem_cons_self) _ rfl, hwf, hdynamic hwf⟩

end LineAsm
