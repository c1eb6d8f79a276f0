import LineAsm.Proofs.Errors
import LineAsm.Proofs.Runs

/-!
# Two budgets

The same code on two machines that differ in their budget alone. As long as the smaller budget
lasts, the two machines go through the same states. When it is exhausted, the fatal error travels
out of all loops and calls without a trace, so the machine is left in a state that the other one
goes through too.

Results:
* `Evaluates.withBudget`: a task that ends without a fatal error ends the same way under any larger
  budget.
* `Evaluates.overtaken`: a task that ends with a fatal error leaves its machine in a state from
  which the machine with the larger budget only goes forward.
* `Run.Tracks`, `run_tracks`: the relation between the two runs, kept by every step.
* `budget_law`: what follows for two fresh machines.
-/
namespace LineAsm

/-! ## Changing the budget -/

/-- The machine with another budget. -/
def Machine.withBudget (m : Machine) (N : Nat) : Machine :=
  { m with limits := { m.limits with maxSteps := N } }

def Outcome.withBudget (o : Outcome) (N : Nat) : Outcome := ⟨o.machine.withBudget N, o.error?⟩

section
variable (m : Machine) (N : Nat)

theorem holds_withBudget (c : Condition) : (m.withBudget N).holds c = m.holds c :=
  Machine.holds_congr rfl rfl c

theorem goes_withBudget (k : Nat) (guard : Guard) :
    guard.goes (m.withBudget N) k = guard.goes m k := Guard.goes_congr rfl rfl k guard

theorem guard?_withBudget (header : Header) :
    header.guard? (m.withBudget N) = header.guard? m := Header.guard?_congr rfl rfl header

theorem exec_withBudget {a : Action} (ha : a.callee? = none)
    (call : String → Nat → Machine → Outcome) (line : Nat) :
    a.exec call line (m.withBudget N) = (a.exec call line m).withBudget N := by
  -- the two machines have the same data
  obtain ⟨d, cause?, h⟩ := Action.exec_holding ha m
  have hsmall : a.exec call line m = ⟨m.holding d, cause?.map (m.errorAt line)⟩ := h call line m
  have hlarge : a.exec call line (m.withBudget N) =
      ⟨(m.withBudget N).holding d, cause?.map ((m.withBudget N).errorAt line)⟩ :=
    h call line (m.withBudget N)
  rw [hsmall, hlarge]
  rfl

theorem inLoop_withBudget (line k : Nat) (e : ExecError) :
    Outcome.inLoop line k (m.withBudget N) e = (Outcome.inLoop line k m e).withBudget N := by
  unfold Outcome.inLoop
  split <;> rfl

theorem kept_withBudget (o : Outcome) : (o.withBudget N).kept = o.kept.withBudget N := by
  obtain ⟨m, error⟩ := o
  cases error <;> rfl

end

/-! ## Tasks under a larger budget -/

namespace Evaluates

variable {t : Task} {m : Machine} {n N : Nat} {o : Outcome}

theorem withBudget (h : Evaluates t m n o) (hf : o.isFatal = false)
    (hN : m.limits.maxSteps ≤ N) : Evaluates t (m.withBudget N) n (o.withBudget N) := by
  induction h with
  | exhausted hs => cases hf
  | action hs ha =>
    rw [← exec_withBudget _ N ha]
    exact .action (Nat.lt_of_lt_of_le hs hN) ha
  | @refused line _ _ m cause hs he =>
    show Evaluates _ _ 1 ((m.withBudget N).tick.fail line cause)
    exact .refused (Nat.lt_of_lt_of_le hs hN) he
  | @called _ _ _ _ _ n o hs he _ ih =>
    show Evaluates _ _ (n + 1) (o.withBudget N).leave
    exact .called (Nat.lt_of_lt_of_le hs hN) he (ih hf hN)
  | @skipped _ _ _ _ m hs hc =>
    show Evaluates _ _ 1 ⟨(m.withBudget N).tick, none⟩
    exact .skipped (Nat.lt_of_lt_of_le hs hN) ((holds_withBudget _ N _).trans hc)
  | taken hs hc _ ih =>
    exact .taken (Nat.lt_of_lt_of_le hs hN) ((holds_withBudget _ N _).trans hc) (ih hf hN)
  | looped hs hg _ ih =>
    exact .looped (Nat.lt_of_lt_of_le hs hN) ((guard?_withBudget _ N _).trans hg) (ih hf hN)
  | loopEnds hg => exact .loopEnds ((goes_withBudget _ N _ _).trans hg)
  | loopGoes hg hb _ ihb ihl =>
    have hl := hb.grows.limits
    simp only at hl
    exact .loopGoes ((goes_withBudget _ N _ _).trans hg) (ihb rfl hN)
      (ihl hf (by rw [hl]; exact hN))
  | loopFails hg _ ih =>
    rw [Outcome.isFatal_inLoop] at hf
    rw [← inLoop_withBudget]
    exact .loopFails ((goes_withBudget _ N _ _).trans hg) (ih hf hN)
  | codeEnds => exact .codeEnds
  | codeGoes hi hfi _ ihi ihr =>
    have hl := hi.grows.limits
    refine .codeGoes (ihi hfi hN) hfi ?_
    rw [kept_withBudget]
    exact ihr hf (by rw [Outcome.kept_limits, hl]; exact hN)
  | codeStops _ hfi => rw [hfi] at hf; cases hf

/-- The rest of a loop after a body, whatever the body returned. -/
theorem loop_after {line k : Nat} {guard : Guard} {s : Statement}
    (hg : guard.goes m k = true) (hb : Evaluates (.statement line s) m n o) :
    ∃ n' o', Evaluates (.loop line guard s k) m n' o' ∧ o.machine.Grows o'.machine := by
  obtain ⟨m', error⟩ := o
  cases error with
  | none =>
    obtain ⟨n', o', hl⟩ := exists_evaluates (.loop line guard s (k + 1)) m'
    exact ⟨_, o', .loopGoes hg hb hl, hl.grows⟩
  | some e => exact ⟨n, _, .loopFails hg hb, by rw [Outcome.machine_inLoop]; exact .refl _⟩

/-- The rest of a function body after an instruction, whatever the instruction returned. -/
theorem code_after {i : Instruction} {rest : List Instruction}
    (hi : Evaluates (.statement i.line i.statement) m n o) :
    ∃ n' o', Evaluates (.code (i :: rest)) m n' o' ∧ o.machine.Grows o'.machine := by
  cases hf : o.isFatal with
  | true => exact ⟨n, o, .codeStops hi hf, .refl _⟩
  | false =>
    obtain ⟨n', o', hr⟩ := exists_evaluates (.code rest) o.kept
    exact ⟨_, o', .codeGoes hi hf hr, (Machine.Grows.kept o).trans hr.grows⟩

theorem overtaken (h : Evaluates t m n o) (hf : o.isFatal = true) (hN : m.limits.maxSteps ≤ N) :
    ∃ n' o', Evaluates t (m.withBudget N) n' o' ∧ (o.machine.withBudget N).Grows o'.machine := by
  induction h with
  | exhausted hs =>
    obtain ⟨n', o', h'⟩ := exists_evaluates _ _
    exact ⟨n', o', h', h'.grows⟩
  | action hs ha => rw [(Action.exec_effect ha _ _ _).isFatal] at hf; cases hf
  | refused hs he =>
    have := Machine.entry_error he
    simp only [Machine.fail, Outcome.isFatal_some, this] at hf; cases hf
  | called hs he _ ih =>
    obtain ⟨n', o', h', hg⟩ := ih hf hN
    refine ⟨n' + 1, o'.leave, .called (Nat.lt_of_lt_of_le hs hN) he h', ?_⟩
    exact { hg with frames := congrArg List.tail hg.frames }
  | skipped hs hc => cases hf
  | taken hs hc _ ih =>
    obtain ⟨n', o', h', hg⟩ := ih hf hN
    exact ⟨n' + 1, o',
      .taken (Nat.lt_of_lt_of_le hs hN) ((holds_withBudget _ N _).trans hc) h', hg⟩
  | looped hs hgd _ ih =>
    obtain ⟨n', o', h', hg⟩ := ih hf hN
    exact ⟨n' + 1, o',
      .looped (Nat.lt_of_lt_of_le hs hN) ((guard?_withBudget _ N _).trans hgd) h', hg⟩
  | loopEnds hg => cases hf
  | loopGoes hgd hb _ _ ihl =>
    have hl := hb.grows.limits
    simp only at hl
    obtain ⟨n', o', h', hg⟩ := ihl hf (by rw [hl]; exact hN)
    exact ⟨_, o', .loopGoes ((goes_withBudget _ N _ _).trans hgd) (hb.withBudget rfl hN) h', hg⟩
  | loopFails hgd _ ih =>
    rw [Outcome.isFatal_inLoop] at hf
    obtain ⟨n₁, o₁, h₁, hg₁⟩ := ih hf hN
    obtain ⟨n', o', h', hg⟩ := loop_after ((goes_withBudget _ N _ _).trans hgd) h₁
    exact ⟨n', o', h', by rw [Outcome.machine_inLoop]; exact hg₁.trans hg⟩
  | codeEnds => cases hf
  | codeGoes hi hfi _ _ ihr =>
    have hl := hi.grows.limits
    obtain ⟨n', o', h', hg⟩ := ihr hf (by rw [Outcome.kept_limits, hl]; exact hN)
    rw [← kept_withBudget] at h'
    exact ⟨_, o', .codeGoes (hi.withBudget hfi hN) hfi h', hg⟩
  | codeStops _ hfi ih =>
    obtain ⟨n₁, o₁, h₁, hg₁⟩ := ih hf hN
    obtain ⟨n', o', h', hg⟩ := code_after h₁
    exact ⟨n', o', h', hg₁.trans hg⟩

end Evaluates

/-! ## Runs under a larger budget -/

/-- How a run is followed by the run of the same code with the budget `N`: both are in the same
state, or the first one has halted in a state that the second one went through. -/
def Run.Tracks (N : Nat) (r r' : Run) : Prop :=
  (r.halted = false ∧ r.machine.steps ≤ r.machine.limits.maxSteps ∧
    r' = ⟨r.machine.withBudget N, r.trace, false⟩) ∨
  (r.halted = true ∧ ∃ (m : Machine) (e : ExecError), r.machine = m.record e ∧
    e.cause = .budgetExhausted m.limits.maxSteps ∧ m.steps = m.limits.maxSteps ∧
    (m.withBudget N).Grows r'.machine ∧ r.trace.toList <+: r'.trace.toList)

theorem Run.Tracks.step {N : Nat} {r r' : Run} (h : r.Tracks N r')
    (hN : r.machine.limits.maxSteps ≤ N) (i : Instruction) : (r.step i).Tracks N (r'.step i) := by
  obtain ⟨m, trace, halted⟩ := r
  rcases h with ⟨rfl, hs, rfl⟩ | ⟨rfl, m₁, e, hm, hc, hs, hg, ht⟩
  · obtain ⟨n, hn⟩ := evaluates_execute m i
    have hs' : (m.execute i).machine.steps ≤ m.limits.maxSteps := hn.steps_le hs
    rw [Run.step_live, Run.step_live]
    cases hf : (m.execute i).isFatal with
    | false =>
      left
      have hex := (hn.withBudget hf hN).execute_eq
      refine ⟨rfl, ?_, ?_⟩
      · rw [Outcome.kept_steps, Outcome.kept_limits, hn.grows.limits]; exact hs'
      · rw [hex, kept_withBudget]
        exact congrArg (Run.mk _ _) hf
    | true =>
      right
      obtain ⟨e, he, hfe⟩ := Outcome.error_of_isFatal hf
      obtain ⟨hc, hle⟩ := hn.fatal e he hfe
      have hl := hn.grows.limits
      obtain ⟨n', o', h', hg⟩ := hn.overtaken hf hN
      rw [h'.execute_eq]
      refine ⟨rfl, (m.execute i).machine, e, ?_, ?_, ?_, hg.trans (.kept _), List.prefix_refl _⟩
      · unfold Outcome.kept; rw [he]
      · rw [hl]; exact hc
      · rw [hl]; omega
  · right
    have hstep := r'.step_grows i
    exact ⟨rfl, m₁, e, hm, hc, hs, hg.trans hstep.1, ht.trans hstep.2⟩

theorem run_tracks {m : Machine} {N : Nat} (hs : m.steps ≤ m.limits.maxSteps)
    (hN : m.limits.maxSteps ≤ N) (code : List Instruction) :
    (m.run code).Tracks N ((m.withBudget N).run code) := by
  suffices h : ∀ r r' : Run, r.Tracks N r' → r.machine.limits.maxSteps ≤ N →
      (code.foldl Run.step r).Tracks N (code.foldl Run.step r') from
    h ⟨m, #[], false⟩ ⟨m.withBudget N, #[], false⟩ (Or.inl ⟨rfl, hs, rfl⟩) hN
  induction code with
  | nil => intro r r' h _; exact h
  | cons i rest ih =>
    intro r r' h hN
    exact ih _ _ (h.step hN i) (by rw [(r.step_grows i).1.limits]; exact hN)

/-- **Budget law.** The same code on two fresh machines whose budgets are `N ≤ N'`. If the run with
`N` does not halt, the other one is the same but for the limit. If it halts, all of `N` is used, the
last error is the fatal one, and everything it printed, moved, executed and met before that error is
the beginning of what the other run printed, moved, executed and met. -/
theorem budget_law (functions : Functions) (depth : Nat) (code : List Instruction) {N N' : Nat}
    (hN : N ≤ N') :
    let small := (Machine.fresh ⟨N, depth⟩ functions).run code
    let large := (Machine.fresh ⟨N', depth⟩ functions).run code
    (small.halted = false →
      large.halted = false ∧ large.executed = small.executed ∧ large.trace = small.trace ∧
      large.machine = { small.machine with limits := ⟨N', depth⟩ }) ∧
    (small.halted = true →
      small.machine.steps = N ∧
      small.machine.output.toList <+: large.machine.output.toList ∧
      small.machine.journal.toList <+: large.machine.journal.toList ∧
      small.trace.toList <+: large.trace.toList ∧
      ∃ earlier last, small.machine.errors.toList = earlier ++ [last] ∧
        last.cause = .budgetExhausted N ∧ earlier <+: large.machine.errors.toList) := by
  intro small large
  have hl : small.machine.limits = ⟨N, depth⟩ := (Machine.run_grows _ code).limits
  have htracks : small.Tracks N' large := run_tracks (Nat.zero_le _) hN code
  rcases htracks with ⟨hlive, -, hlarge⟩ | ⟨hhalt, m, e, hm, hc, hs, hg, ht⟩
  · constructor
    · intro _
      rw [hlarge]
      refine ⟨rfl, rfl, rfl, ?_⟩
      simp only [Machine.withBudget, hl]
    · intro h
      rw [hlive] at h; cases h
  · have hml : m.limits = ⟨N, depth⟩ := by rw [← hl, hm]; rfl
    rw [hml] at hc hs
    constructor
    · intro h
      rw [hhalt] at h; cases h
    · intro _
      rw [hm]
      refine ⟨hs, hg.output, hg.journal, ht, m.errors.toList, e, ?_, hc, hg.errors⟩
      simp [Machine.record]

/-- A call of a function that fails once and then prints three times in a loop. -/
def printingRun (budget : Nat) : Run :=
  (Machine.fresh ⟨budget, 256⟩ ((∅ : Functions).insert "f"
    [⟨2, .simple "div r, 0" (.arith .div "r" (.literal 0))⟩,
     ⟨3, .block "loop for 3 print 7" (.times (.literal 3))
      (.simple "print 7" (.print [.value (.literal 7)]))⟩])).run [⟨5, .simple "call f" (.call "f")⟩]

/-- Four steps end inside the loop of the called function, nine are enough. -/
theorem budget_law_four_nine :
    4 ≤ 9 ∧ (printingRun 4).halted = true ∧ (printingRun 9).halted = false ∧
    (printingRun 4).machine.steps = 4 ∧
    (printingRun 4).machine.output.toList <+: (printingRun 9).machine.output.toList ∧
    (printingRun 4).machine.journal.toList <+: (printingRun 9).machine.journal.toList ∧
    (printingRun 4).trace.toList <+: (printingRun 9).trace.toList ∧
    ∃ earlier last, (printingRun 4).machine.errors.toList = earlier ++ [last] ∧
      last.cause = .budgetExhausted 4 ∧ earlier <+: (printingRun 9).machine.errors.toList :=
  ⟨by decide, by decide, by decide, (budget_law _ 256 _ (by decide : 4 ≤ 9)).2 (by decide)⟩

end LineAsm
