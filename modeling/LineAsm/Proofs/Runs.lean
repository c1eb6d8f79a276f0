import LineAsm.Proofs.Evaluation

/-!
# Steps of a run

A run executes one instruction after the other and keeps the error of each; when the budget is
exhausted it halts.

Results:
* `Run.step_live`, `Run.step_halted`: what one step of a run does.
* `Machine.run_concat`, `Machine.run_cons`, `Machine.run_append`: a run taken apart at either end
  and in the middle.
* `Run.step_grows`, `Machine.run_grows`: a run only goes forward.
* `Machine.run_steps_le`: a run never takes more steps than the budget has.
-/
namespace LineAsm

/-! ## One step -/

theorem Run.step_live (m : Machine) (trace : Array Instruction) (i : Instruction) :
    (⟨m, trace, false⟩ : Run).step i =
      ⟨(m.execute i).kept, trace.push i, (m.execute i).isFatal⟩ := by
  unfold Run.step
  split
  · rename_i h; cases h
  · rename_i h
    cases h
    split
    · rename_i he; rw [he]; rfl
    · rename_i he; rw [he]; rfl

theorem Run.step_halted {r : Run} (h : r.halted = true) (i : Instruction) : r.step i = r := by
  obtain ⟨m, trace, halted⟩ := r
  cases h
  rfl

theorem Run.step_grows (r : Run) (i : Instruction) :
    r.machine.Grows (r.step i).machine ∧ r.trace.toList <+: (r.step i).trace.toList := by
  obtain ⟨m, trace, halted⟩ := r
  cases halted with
  | true => exact ⟨.refl m, List.prefix_refl _⟩
  | false =>
    obtain ⟨n, hn⟩ := evaluates_execute m i
    rw [Run.step_live]
    exact ⟨hn.grows.trans (.kept _), by simp⟩

theorem Run.step_steps_le {r : Run} (h : r.machine.steps ≤ r.machine.limits.maxSteps)
    (i : Instruction) : (r.step i).machine.steps ≤ (r.step i).machine.limits.maxSteps := by
  rw [(r.step_grows i).1.limits]
  obtain ⟨m, trace, halted⟩ := r
  cases halted with
  | true => exact h
  | false =>
    obtain ⟨n, hn⟩ := evaluates_execute m i
    rw [Run.step_live, Outcome.kept_steps]
    exact hn.steps_le h

/-! ## Whole runs -/

namespace Machine

/-- A machine that has done nothing yet, with a function table. -/
def fresh (limits : Limits) (functions : Functions) : Machine := { limits, functions }

@[simp] theorem run_nil (m : Machine) : m.run [] = ⟨m, #[], false⟩ := rfl

theorem run_singleton (m : Machine) (i : Instruction) :
    m.run [i] = ⟨(m.execute i).kept, #[i], (m.execute i).isFatal⟩ := Run.step_live m #[] i

theorem run_concat (m : Machine) (code : List Instruction) (i : Instruction) :
    m.run (code ++ [i]) = (m.run code).step i := by
  unfold run
  rw [List.foldl_append]
  rfl

/-- The trace at the start of a run is carried along. -/
theorem foldl_step_trace (code : List Instruction) (m : Machine) (trace : Array Instruction)
    (halted : Bool) :
    code.foldl Run.step ⟨m, trace, halted⟩ =
      let r := code.foldl Run.step ⟨m, #[], halted⟩
      ⟨r.machine, trace ++ r.trace, r.halted⟩ := by
  induction code generalizing m trace halted with
  | nil => simp
  | cons i rest ih =>
    cases halted with
    | true => exact ih m trace true
    | false =>
      simp only [List.foldl_cons, Run.step_live]
      rw [ih _ (trace.push i), ih _ (#[].push i)]
      simp [← Array.append_assoc]

theorem foldl_step_halted (code : List Instruction) {r : Run} (h : r.halted = true) :
    code.foldl Run.step r = r := by
  induction code with
  | nil => rfl
  | cons i rest ih => rw [List.foldl_cons, Run.step_halted h, ih]

theorem run_cons (m : Machine) (i : Instruction) (rest : List Instruction) :
    m.run (i :: rest) =
      if (m.execute i).isFatal then ⟨(m.execute i).kept, #[i], true⟩
      else
        let r := (m.execute i).kept.run rest
        ⟨r.machine, #[i] ++ r.trace, r.halted⟩ := by
  unfold run
  rw [List.foldl_cons, Run.step_live]
  split
  · rename_i hf
    rw [hf, foldl_step_halted rest rfl]
    rfl
  · rename_i hf
    rw [Bool.not_eq_true] at hf
    rw [hf, foldl_step_trace]
    rfl

/-- A run goes on from the machine that its first part leaves, unless that part has halted. -/
theorem run_append (m : Machine) (code rest : List Instruction) :
    m.run (code ++ rest) =
      if (m.run code).halted then m.run code
      else
        let r := (m.run code).machine.run rest
        ⟨r.machine, (m.run code).trace ++ r.trace, r.halted⟩ := by
  unfold run
  rw [List.foldl_append]
  obtain ⟨m', trace, halted⟩ := code.foldl Run.step ⟨m, #[], false⟩
  cases halted with
  | true => exact foldl_step_halted rest rfl
  | false => exact foldl_step_trace rest m' trace false

theorem run_append_live {m : Machine} {code rest : List Instruction} :
    (m.run (code ++ rest)).halted = false ↔
      (m.run code).halted = false ∧ ((m.run code).machine.run rest).halted = false := by
  rw [run_append]
  cases hh : (m.run code).halted <;> simp [hh]

theorem run_append_machine {m : Machine} {code : List Instruction}
    (h : (m.run code).halted = false) (rest : List Instruction) :
    (m.run (code ++ rest)).machine = ((m.run code).machine.run rest).machine := by
  rw [run_append, h]
  rfl

theorem run_grows (m : Machine) (code : List Instruction) : m.Grows (m.run code).machine := by
  suffices h : ∀ r : Run, r.machine.Grows (code.foldl Run.step r).machine from h ⟨m, #[], false⟩
  induction code with
  | nil => intro r; exact .refl _
  | cons i rest ih => intro r; exact (r.step_grows i).1.trans (ih _)

theorem run_steps_le {m : Machine} (h : m.steps ≤ m.limits.maxSteps) (code : List Instruction) :
    (m.run code).machine.steps ≤ (m.run code).machine.limits.maxSteps := by
  suffices h' : ∀ r : Run, r.machine.steps ≤ r.machine.limits.maxSteps →
      (code.foldl Run.step r).machine.steps ≤ (code.foldl Run.step r).machine.limits.maxSteps from
    h' ⟨m, #[], false⟩ h
  induction code with
  | nil => intro r hr; exact hr
  | cons i rest ih => intro r hr; exact ih _ (Run.step_steps_le hr i)

end Machine

end LineAsm
