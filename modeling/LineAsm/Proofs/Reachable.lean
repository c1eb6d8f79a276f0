import LineAsm.Proofs.Runs

/-!
# The life of a machine

Between two uses from outside a machine is at rest: no call is active. It is used by defining
functions, executing single instructions and running lists of them, in any order.

Results:
* `Reaches m m'`: `m'` is `m` after any number of uses.
* `Reaches.invariant`: what every use keeps holds of all that a machine becomes.
* `Reaches.limits`, `Reaches.frames`, `Reaches.steps`: uses change neither the limits nor the active
  calls, and the step counter does not go back.
* `Reaches.steps_le`: a machine that has not overdrawn its budget never does.
-/
namespace LineAsm

/-- Loading a program changes the function table only. -/
theorem Machine.load_eq (m : Machine) (p : Program) :
    ∃ functions, m.load p = { m with functions } := by
  unfold Machine.load
  induction p.functions.toList generalizing m with
  | nil => exact ⟨m.functions, rfl⟩
  | cons f rest ih =>
    obtain ⟨functions, h⟩ := ih (m.define f.1 f.2)
    exact ⟨functions, h⟩

/-- What a machine can become through its use. -/
inductive Reaches (m : Machine) : Machine → Prop
  | refl : Reaches m m
  | load {m'} (h : Reaches m m') (p : Program) : Reaches m (m'.load p)
  | define {m'} (h : Reaches m m') (name : String) (body : List Instruction) :
      Reaches m (m'.define name body)
  | execute {m'} (h : Reaches m m') (i : Instruction) : Reaches m (m'.execute i).machine
  | run {m'} (h : Reaches m m') (code : List Instruction) : Reaches m (m'.run code).machine

theorem Machine.execute_grows (m : Machine) (i : Instruction) : m.Grows (m.execute i).machine := by
  obtain ⟨n, hn⟩ := evaluates_execute m i
  exact hn.grows

namespace Reaches

variable {m m' : Machine}

/-- What holds of a machine and is kept by each of its uses holds of all it becomes. -/
theorem invariant {P : Machine → Prop} (h : Reaches m m') (start : P m)
    (functions : ∀ m functions, P m → P { m with functions })
    (execute : ∀ m i, P m → P (m.execute i).machine)
    (run : ∀ m code, P m → P (m.run code).machine) : P m' := by
  induction h with
  | refl => exact start
  | @load m' _ p ih =>
    obtain ⟨table, hp⟩ := m'.load_eq p
    rw [hp]
    exact functions m' table ih
  | define _ name body ih => exact functions _ _ ih
  | execute _ i ih => exact execute _ i ih
  | run _ code ih => exact run _ code ih

theorem limits (h : Reaches m m') : m'.limits = m.limits :=
  h.invariant (P := fun x => x.limits = m.limits) rfl (fun _ _ hx => hx)
    (fun x i hx => (x.execute_grows i).limits.trans hx)
    (fun x code hx => (x.run_grows code).limits.trans hx)

theorem frames (h : Reaches m m') : m'.frames = m.frames :=
  h.invariant (P := fun x => x.frames = m.frames) rfl (fun _ _ hx => hx)
    (fun x i hx => (x.execute_grows i).frames.trans hx)
    (fun x code hx => (x.run_grows code).frames.trans hx)

theorem steps (h : Reaches m m') : m.steps ≤ m'.steps :=
  h.invariant (P := fun x => m.steps ≤ x.steps) (Nat.le_refl _) (fun _ _ hx => hx)
    (fun x i hx => Nat.le_trans hx (x.execute_grows i).steps)
    (fun x code hx => Nat.le_trans hx (x.run_grows code).steps)

theorem steps_le (h : Reaches m m') (hs : m.steps ≤ m.limits.maxSteps) :
    m'.steps ≤ m'.limits.maxSteps := by
  refine h.invariant (P := fun x => x.steps ≤ x.limits.maxSteps) hs (fun _ _ hx => hx) ?_
    (fun _ code hx => Machine.run_steps_le hx code)
  intro x i hx
  obtain ⟨n, hn⟩ := evaluates_execute x i
  rw [hn.grows.limits]
  exact hn.steps_le hx

end Reaches

end LineAsm
