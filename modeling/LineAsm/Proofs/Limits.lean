import LineAsm.Proofs.Origins

/-!
# Limits are kept

Two limits bound a machine: the budget of steps and the depth of calls. The first is looked at
before every statement and the second at every call, so neither can be passed, at the end of an
execution or anywhere inside it. What was met at a limit says so: an error names the limit, and one
at the limit on calls was met under exactly as many of them. An exhausted budget is never reported
as the failure of a loop, so that it can be told from its outermost cause alone.

Results:
* `Passes t m o`: the machine is in the state `o` at some point while it executes the task `t`.
* `Evaluates.withinLimits`, `Passes.withinLimits`: the end of a task and every point on the way.
* `Run.step_withinLimits`, `Machine.run_withinLimits`, `Reaches.withinLimits`: steps, runs and all
  other uses of a machine.
* `limits_are_kept`: what follows for every machine in use.
-/
namespace LineAsm

/-! ## Points of an execution -/

/-- At some point of the task the machine is in this state, and this error is on its way out, if
there is one. The points are the start of the task, the step that it takes, its end, and the points
of all that is executed for it. -/
inductive Passes : Task → Machine → Outcome → Prop
  | starts {t m} : Passes t m ⟨m, none⟩
  | ticks {line s m} (hs : m.steps < m.limits.maxSteps) :
      Passes (.statement line s) m ⟨m.tick, none⟩
  | ends {t m n o} (h : Evaluates t m n o) : Passes t m o
  | called {line text f m body o} (hs : m.steps < m.limits.maxSteps)
      (hf : m.tick.entry f = .ok body) (hb : Passes (.code body) (m.tick.enter f line) o) :
      Passes (.statement line (.simple text (.call f))) m o
  | taken {line text c body m o} (hs : m.steps < m.limits.maxSteps)
      (hc : m.tick.holds c = true) (hb : Passes (.statement line body) m.tick o) :
      Passes (.statement line (.block text (.ifTrue c) body)) m o
  | looped {line text header body m guard o} (hs : m.steps < m.limits.maxSteps)
      (hg : header.guard? m.tick = some guard)
      (hl : Passes (.loop line guard body 0) m.tick o) :
      Passes (.statement line (.block text header body)) m o
  | loopBody {line guard body k m o} (hg : guard.goes m k = true)
      (hb : Passes (.statement line body) m o) :
      Passes (.loop line guard body k) m o
  | loopNext {line guard body k m m' n o} (hg : guard.goes m k = true)
      (hb : Evaluates (.statement line body) m n ⟨m', none⟩)
      (hl : Passes (.loop line guard body (k + 1)) m' o) :
      Passes (.loop line guard body k) m o
  | codeFirst {i rest m o} (hi : Passes (.statement i.line i.statement) m o) :
      Passes (.code (i :: rest)) m o
  | codeNext {i rest m n o o'} (hi : Evaluates (.statement i.line i.statement) m n o)
      (hf : o.isFatal = false) (hr : Passes (.code rest) o.kept o') :
      Passes (.code (i :: rest)) m o'

/-! ## Errors -/

/-- What limits promise of an error. An exhausted budget is the outermost cause and names the
budget. An error met at the limit on calls names that limit and was met under as many calls. -/
structure ExecError.WithinLimits (maxSteps depth : Nat) (e : ExecError) : Prop where
  trace : e.trace.length ≤ depth
  budget : ∀ n, e.cause.innermost = .budgetExhausted n → e.cause = .budgetExhausted maxSteps
  calls : ∀ k, e.cause.innermost = .callDepthExceeded k → k = depth ∧ e.trace.length = depth

/-- Neither limit plays a part in the error. -/
theorem ExecError.WithinLimits.of_other {maxSteps depth : Nat} {e : ExecError}
    (htrace : e.trace.length ≤ depth) (hbudget : ∀ n, e.cause.innermost ≠ .budgetExhausted n)
    (hcalls : ∀ k, e.cause.innermost ≠ .callDepthExceeded k) : e.WithinLimits maxSteps depth :=
  ⟨htrace, fun n h => absurd h (hbudget n), fun k h => absurd h (hcalls k)⟩

/-- An action that calls nothing fails at no limit. -/
theorem Action.exec_not_limit {a : Action} (ha : a.callee? = none)
    {call : String → Nat → Machine → Outcome} {line : Nat} {m : Machine} {e : ExecError}
    (he : (a.exec call line m).error? = some e) :
    (∀ n, e.cause.innermost ≠ .budgetExhausted n) ∧
      ∀ k, e.cause.innermost ≠ .callDepthExceeded k := by
  -- no program is asked unless a function is called
  have hraises := Action.exec_raises ⟨[], ∅, [], []⟩ ha he
  generalize e.cause.innermost = cause at hraises
  cases hraises with
  | undefined | depth => cases ha
  | _ => exact ⟨nofun, nofun⟩

/-! ## Machines and outcomes -/

/-- A machine with these limits that has passed none of them, and neither has any error it kept. -/
structure Machine.WithinLimits (limits : Limits) (m : Machine) : Prop where
  limits_eq : m.limits = limits
  steps : m.steps ≤ limits.maxSteps
  frames : m.frames.length ≤ limits.callDepth
  errors : ∀ e ∈ m.errors.toList, e.WithinLimits limits.maxSteps limits.callDepth

/-- The machine has passed no limit, and neither has the error that is returned. -/
def Outcome.WithinLimits (limits : Limits) (o : Outcome) : Prop :=
  o.machine.WithinLimits limits ∧
    ∀ e, o.error? = some e → e.WithinLimits limits.maxSteps limits.callDepth

variable {limits : Limits}

namespace Machine.WithinLimits

variable {m : Machine}

theorem fresh (limits : Limits) (functions : Functions) :
    (Machine.fresh limits functions).WithinLimits limits :=
  ⟨rfl, Nat.zero_le _, Nat.zero_le _, by simp [Machine.fresh]⟩

theorem tick (h : m.WithinLimits limits) (hs : m.steps < m.limits.maxSteps) :
    m.tick.WithinLimits limits :=
  { h with steps := h.limits_eq ▸ hs }

theorem enter (h : m.WithinLimits limits) {f : String} {body : List Instruction}
    (hf : m.entry f = .ok body) (line : Nat) : (m.enter f line).WithinLimits limits :=
  { h with frames := h.limits_eq ▸ (entry_ok_iff.1 hf).1 }

theorem ok (h : m.WithinLimits limits) : (⟨m, none⟩ : Outcome).WithinLimits limits :=
  ⟨h, by simp⟩

theorem fail (h : m.WithinLimits limits) {line : Nat} {cause : Cause}
    (he : (m.errorAt line cause).WithinLimits limits.maxSteps limits.callDepth) :
    (m.fail line cause).WithinLimits limits := by
  refine ⟨h, ?_⟩
  intro e heq
  cases heq
  exact he

theorem exhausted (h : m.WithinLimits limits) (line : Nat) :
    (m.fail line (.budgetExhausted m.limits.maxSteps)).WithinLimits limits := by
  rw [h.limits_eq]
  exact h.fail ⟨h.frames, fun _ _ => rfl, nofun⟩

/-- A call is refused at the limit itself, since it was never passed. -/
theorem refused (h : m.WithinLimits limits) {f : String} {cause : Cause}
    (hf : m.entry f = .error cause) (line : Nat) : (m.fail line cause).WithinLimits limits := by
  rw [entry_error_iff, h.limits_eq] at hf
  rcases hf with ⟨hle, rfl⟩ | ⟨-, -, rfl⟩
  · refine h.fail ⟨h.frames, nofun, ?_⟩
    intro k hk
    cases hk
    exact ⟨rfl, Nat.le_antisymm h.frames hle⟩
  · exact h.fail (.of_other h.frames nofun nofun)

theorem action (h : m.WithinLimits limits) {a : Action} (ha : a.callee? = none)
    (call : String → Nat → Machine → Outcome) (line : Nat) :
    (a.exec call line m).WithinLimits limits := by
  have heffect := Action.exec_effect ha call line m
  refine ⟨⟨heffect.grows.limits.trans h.limits_eq, ?_, ?_, ?_⟩, ?_⟩
  · rw [heffect.steps]
    exact h.steps
  · rw [heffect.grows.frames]
    exact h.frames
  · rw [heffect.errors]
    exact h.errors
  · intro e he
    obtain ⟨-, -, -, htrace⟩ := heffect.failed e he
    obtain ⟨hbudget, hcalls⟩ := Action.exec_not_limit ha he
    exact .of_other (htrace ▸ h.frames) hbudget hcalls

end Machine.WithinLimits

namespace Outcome.WithinLimits

variable {o : Outcome}

theorem kept (h : o.WithinLimits limits) : o.kept.WithinLimits limits := by
  obtain ⟨m, error⟩ := o
  cases error with
  | none => exact h.1
  | some e =>
    refine { h.1 with errors := ?_ }
    intro e' he'
    simp only [kept_some, Machine.record, Array.toList_push, List.mem_append,
      List.mem_singleton] at he'
    rcases he' with he' | rfl
    · exact h.1.errors e' he'
    · exact h.2 e' rfl

theorem leave (h : o.WithinLimits limits) : o.leave.WithinLimits limits := by
  have hframes := h.1.frames
  refine ⟨{ h.1 with frames := ?_ }, h.2⟩
  simp only [Outcome.leave, List.length_tail]
  omega

/-- The error of a loop is made anew under the same calls. It is not the budget's, so the budget is
not inside it. -/
theorem inLoop {m : Machine} {e : ExecError} (h : (⟨m, some e⟩ : Outcome).WithinLimits limits)
    (htrace : e.isFatal = false → e.trace = m.frames) (line k : Nat) :
    (inLoop line k m e).WithinLimits limits := by
  cases hf : e.isFatal with
  | true => rw [inLoop_fatal hf]; exact h
  | false =>
    have he := h.2 e rfl
    have hm : m.WithinLimits limits := h.1
    rw [inLoop_local hf]
    refine hm.fail ⟨hm.frames, ?_, ?_⟩
    · intro n hn
      have hcause := he.budget n hn
      simp [ExecError.isFatal, hcause] at hf
    · intro limit hlimit
      obtain ⟨hk, hlength⟩ := he.calls limit hlimit
      rw [htrace hf] at hlength
      exact ⟨hk, hlength⟩

end Outcome.WithinLimits

/-! ## Tasks -/

/-- A task that starts within the limits ends within them. -/
theorem Evaluates.withinLimits {t : Task} {m : Machine} {n : Nat} {o : Outcome}
    (h : Evaluates t m n o) (hm : m.WithinLimits limits) : o.WithinLimits limits := by
  induction h with
  | exhausted hs => exact hm.exhausted _
  | action hs ha => exact (hm.tick hs).action ha _ _
  | refused hs hf => exact (hm.tick hs).refused hf _
  | called hs hf _ ih => exact (ih ((hm.tick hs).enter hf _)).leave
  | skipped hs hc => exact (hm.tick hs).ok
  | taken hs hc _ ih => exact ih (hm.tick hs)
  | looped hs hg _ ih => exact ih (hm.tick hs)
  | loopEnds hg => exact hm.ok
  | loopGoes hg _ _ ihb ihl => exact ihl (ihb hm).1
  | loopFails hg hb ih =>
    refine (ih hm).inLoop ?_ _ _
    intro hf
    exact (hb.local_error _ rfl hf).2.trans hb.grows.frames.symm
  | codeEnds => exact hm.ok
  | codeGoes _ hf _ ihi ihr => exact ihr (ihi hm).kept
  | codeStops _ hf ih => exact ih hm

/-- **Limits inside a task.** A task that starts within the limits is within them at every point. -/
theorem Passes.withinLimits {t : Task} {m : Machine} {o : Outcome} (h : Passes t m o)
    (hm : m.WithinLimits limits) : o.WithinLimits limits := by
  induction h with
  | starts => exact hm.ok
  | ticks hs => exact (hm.tick hs).ok
  | ends h => exact h.withinLimits hm
  | called hs hf _ ih => exact ih ((hm.tick hs).enter hf _)
  | taken hs hc _ ih => exact ih (hm.tick hs)
  | looped hs hg _ ih => exact ih (hm.tick hs)
  | loopBody hg _ ih => exact ih hm
  | loopNext hg hb _ ih => exact ih (hb.withinLimits hm).1
  | codeFirst _ ih => exact ih hm
  | codeNext hi hf _ ih => exact ih (hi.withinLimits hm).kept

/-! ## Runs and other uses -/

theorem Machine.execute_withinLimits {m : Machine} (hm : m.WithinLimits limits) (i : Instruction) :
    (m.execute i).WithinLimits limits := by
  obtain ⟨n, hn⟩ := evaluates_execute m i
  exact hn.withinLimits hm

theorem Run.step_withinLimits {r : Run} (hr : r.machine.WithinLimits limits) (i : Instruction) :
    (r.step i).machine.WithinLimits limits := by
  obtain ⟨m, trace, halted⟩ := r
  cases halted with
  | true => exact hr
  | false =>
    rw [Run.step_live]
    exact (Machine.execute_withinLimits hr i).kept

theorem Machine.run_withinLimits {m : Machine} (hm : m.WithinLimits limits)
    (code : List Instruction) : (m.run code).machine.WithinLimits limits := by
  suffices h : ∀ r : Run, r.machine.WithinLimits limits →
      (code.foldl Run.step r).machine.WithinLimits limits from h ⟨m, #[], false⟩ hm
  induction code with
  | nil => intro r hr; exact hr
  | cons i rest ih => intro r hr; exact ih _ (Run.step_withinLimits hr i)

theorem Reaches.withinLimits {m m' : Machine} (h : Reaches m m') (hm : m.WithinLimits limits) :
    m'.WithinLimits limits :=
  h.invariant hm (fun _ _ hx => { hx with }) (fun _ i hx => (Machine.execute_withinLimits hx i).1)
    (fun _ code hx => Machine.run_withinLimits hx code)

/-- **Limits.** A machine in use has taken no more steps than its budget, and so at every point of
every execution; there at most as many calls are active as the limit says, which is never above 512.
Every error that is kept or on its way out was met under at most so many calls. If it comes from the
budget, that is its outermost cause, with the whole budget; if it comes from the limit on calls, it
names that limit and was met under exactly so many. -/
theorem limits_are_kept {m : Machine} (hm : Reaches (.fresh limits ∅) m) :
    let depth := min limits.maxCallDepth 512
    m.steps ≤ limits.maxSteps ∧
    (∀ e ∈ m.errors.toList, e.WithinLimits limits.maxSteps depth) ∧
    (∀ i e, (m.execute i).error? = some e → e.WithinLimits limits.maxSteps depth) ∧
    ∀ (code : List Instruction) (i : Instruction) (o : Outcome),
      Passes (.statement i.line i.statement) (m.run code).machine o →
        o.machine.steps ≤ limits.maxSteps ∧ o.machine.frames.length ≤ depth ∧
        (∀ e ∈ o.machine.errors.toList, e.WithinLimits limits.maxSteps depth) ∧
        ∀ e, o.error? = some e → e.WithinLimits limits.maxSteps depth := by
  intro depth
  have hlimits : m.WithinLimits limits := hm.withinLimits (.fresh limits ∅)
  refine ⟨hlimits.steps, hlimits.errors, ?_, ?_⟩
  · intro i
    exact (Machine.execute_withinLimits hlimits i).2
  · intro code i o ho
    obtain ⟨hpoint, hreturned⟩ := ho.withinLimits (Machine.run_withinLimits hlimits code)
    exact ⟨hpoint.steps, hpoint.frames, hpoint.errors, hreturned⟩

/-- The body of a function that calls itself in a loop. -/
def descentBody : List Instruction :=
  [⟨2, .block "loop for 2 call f" (.times (.literal 2)) (.simple "call f" (.call "f"))⟩]

def descentMachine : Machine := (Machine.fresh ⟨10, 2⟩ ∅).define "f" descentBody

def descentCall : Instruction := ⟨6, .simple "call f" (.call "f")⟩

/-- A call of the function, and then a loop. -/
def descentCode : List Instruction :=
  [descentCall, ⟨7, .block "loop for 3 push 7" (.times (.literal 3))
    (.simple "push 7" (.push (.literal 7)))⟩]

/-- The call meets the limit on calls in both iterations, and the loop exhausts the budget. Inside
the call there is a point with an active call. -/
theorem limits_are_kept_descent :
    let m := (descentMachine.run descentCode).machine
    Reaches (.fresh ⟨10, 2⟩ ∅) m ∧ m.steps = 10 ∧
    m.errors.toList.map (fun e => (e.cause, e.trace.length)) =
      [(.inLoop 0 (.callDepthExceeded 2), 2), (.inLoop 0 (.callDepthExceeded 2), 2),
       (.budgetExhausted 10, 0)] ∧
    (∀ e ∈ m.errors.toList, e.WithinLimits 10 2) ∧
    ∃ o, Passes (.statement descentCall.line descentCall.statement) descentMachine o ∧
      o.machine.frames = [⟨"f", 6⟩] ∧ o.machine.frames.length ≤ 2 := by
  intro m
  have hstart : Reaches (.fresh ⟨10, 2⟩ ∅) descentMachine := .define .refl "f" _
  have hreach : Reaches (.fresh ⟨10, 2⟩ ∅) m := .run hstart descentCode
  have hentry : descentMachine.tick.entry "f" = .ok descentBody :=
    Machine.entry_ok_iff.2 ⟨by decide, by decide⟩
  have hinside : Passes (.statement descentCall.line descentCall.statement) descentMachine
      ⟨descentMachine.tick.enter "f" 6, none⟩ := .called (by decide) hentry .starts
  obtain ⟨-, herrors, -, -⟩ := limits_are_kept hreach
  obtain ⟨-, -, -, hpoints⟩ := limits_are_kept hstart
  obtain ⟨-, hframes, -, -⟩ := hpoints [] descentCall _ hinside
  exact ⟨hreach, by decide, by decide, herrors, _, hinside, rfl, hframes⟩

end LineAsm
