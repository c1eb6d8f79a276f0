import LineAsm.Proofs.Runs

/-!
# Every run comes to an end

`Runs m code n r` gives the rules of a run on top of those for statements, with the number of
statements that are started in it, at any depth of loops and calls.

Results:
* `runs_run`: the rules derive what `run` computes.
* `execution_terminates`: whatever the machine, the rules derive exactly one outcome for an
  instruction and exactly one for a list of them; it is what `execute` and `run` compute, and no
  more statements are started than the budget has left.
-/
namespace LineAsm

/-! ## The rules of a run -/

/-- The run of a list of instructions, with the number of started statements. -/
inductive Runs : Machine → List Instruction → Nat → Run → Prop
  | ends {m} : Runs m [] 0 ⟨m, #[], false⟩
  | goes {m i rest n n' o r} (hi : Evaluates (.statement i.line i.statement) m n o)
      (hf : o.isFatal = false) (hr : Runs o.kept rest n' r) :
      Runs m (i :: rest) (n + n') ⟨r.machine, #[i] ++ r.trace, r.halted⟩
  | halts {m i rest n o} (hi : Evaluates (.statement i.line i.statement) m n o)
      (hf : o.isFatal = true) :
      Runs m (i :: rest) n ⟨o.kept, #[i], true⟩

namespace Runs

variable {m : Machine} {code : List Instruction} {n n' : Nat} {r r' : Run}

theorem unique (h : Runs m code n r) (h' : Runs m code n' r') : n = n' ∧ r = r' := by
  induction h generalizing n' r' with
  | ends => cases h'; exact ⟨rfl, rfl⟩
  | goes hi hf _ ih =>
    cases h' with
    | goes hi' _ hr' =>
      obtain ⟨rfl, rfl⟩ := hi.unique hi'
      obtain ⟨rfl, rfl⟩ := ih hr'
      exact ⟨rfl, rfl⟩
    | halts hi' hf' =>
      obtain ⟨rfl, rfl⟩ := hi.unique hi'
      rw [hf] at hf'; cases hf'
  | halts hi hf =>
    cases h' with
    | goes hi' hf' =>
      obtain ⟨rfl, rfl⟩ := hi.unique hi'
      rw [hf] at hf'; cases hf'
    | halts hi' =>
      obtain ⟨rfl, rfl⟩ := hi.unique hi'
      exact ⟨rfl, rfl⟩

theorem steps (h : Runs m code n r) : r.machine.steps = m.steps + n := by
  induction h with
  | ends => rfl
  | goes hi hf _ ih =>
    rw [Outcome.kept_steps, hi.steps] at ih
    simp only [ih]; omega
  | halts hi hf => simp only [Outcome.kept_steps, hi.steps]

theorem le_budget (h : Runs m code n r) : n ≤ m.budget := by
  induction h with
  | ends => exact Nat.zero_le _
  | goes hi hf _ ih =>
    have hn := hi.le_budget
    unfold Machine.budget at hn ih ⊢
    rw [Outcome.kept_limits, Outcome.kept_steps, hi.grows.limits, hi.steps] at ih
    omega
  | halts hi hf => exact hi.le_budget

end Runs

theorem runs_run (code : List Instruction) : ∀ m : Machine, ∃ n, Runs m code n (m.run code) := by
  induction code with
  | nil => intro m; exact ⟨0, .ends⟩
  | cons i rest ih =>
    intro m
    obtain ⟨n, hn⟩ := evaluates_execute m i
    rw [Machine.run_cons]
    split
    · rename_i hf; exact ⟨n, .halts hn hf⟩
    · rename_i hf
      obtain ⟨n', hn'⟩ := ih (m.execute i).kept
      exact ⟨n + n', .goes hn (by simpa using hf) hn'⟩

/-- **Termination.** On any machine an instruction and a list of instructions have, by the rules,
exactly one outcome each, the one that `execute` and `run` compute. The statements started on the
way are counted by the step counter, and they are at most as many as the budget has left. -/
theorem execution_terminates (m : Machine) :
    (∀ i : Instruction, ∃ n, n ≤ m.limits.maxSteps - m.steps ∧
      (m.execute i).machine.steps = m.steps + n ∧
      ∀ k o, Evaluates (.statement i.line i.statement) m k o ↔ k = n ∧ o = m.execute i) ∧
    (∀ code : List Instruction, ∃ n, n ≤ m.limits.maxSteps - m.steps ∧
      (m.run code).machine.steps = m.steps + n ∧
      ∀ k r, Runs m code k r ↔ k = n ∧ r = m.run code) := by
  constructor
  · intro i
    obtain ⟨n, hn⟩ := evaluates_execute m i
    refine ⟨n, hn.le_budget, hn.steps, fun k o => ⟨fun h => h.unique hn, ?_⟩⟩
    rintro ⟨rfl, rfl⟩
    exact hn
  · intro code
    obtain ⟨n, hn⟩ := runs_run code m
    refine ⟨n, hn.le_budget, hn.steps, fun k r => ⟨fun h => h.unique hn, ?_⟩⟩
    rintro ⟨rfl, rfl⟩
    exact hn

end LineAsm
