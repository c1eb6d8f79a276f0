import LineAsm.Proofs.Effects

/-!
# Evaluation without bounds

`Statement.exec` recurs on the room for calls, and its loops on the budget at their start. Here the
same executions are given by rules that know neither: a loop asks its guard before every body and
goes on as long as the guard says so, and a call looks at the active calls and at the function table
and then executes the body. `Evaluates t m n o` says that the task `t` on the machine `m` comes to
an end with the outcome `o` after starting `n` statements. A statement is started when it takes its
step of the budget.

Results:
* `Evaluates.unique`: a task has at most one outcome.
* `Evaluates.relates`: a relation that every piece of an execution respects holds of the whole.
* `Evaluates.grows`, `Evaluates.steps`, `Evaluates.le_budget`: a task only goes forward, its step
  counter counts the started statements, and there are never more of them than the budget allows.
* `evaluates_execute`, `exists_evaluates`: the rules derive what `execute` computes, and every task
  on every machine comes to an end.
-/
namespace LineAsm

/-! ## Tasks and rules -/

/-- What tells a loop to go on. -/
inductive Guard where
  | times (count : Nat)
  | whileTrue (condition : Condition)
  | doWhile (condition : Condition)

/-- Whether another body is due after `iteration` of them. -/
def Guard.goes (m : Machine) (iteration : Nat) : Guard → Bool
  | .times count => decide (iteration < count)
  | .whileTrue condition => m.holds condition
  | .doWhile condition => iteration == 0 || m.holds condition

/-- The guard of a loop that starts now. The count is read here and never again. -/
def Header.guard? (m : Machine) : Header → Option Guard
  | .times count => some (.times (m.value count).toInt.toNat)
  | .whileTrue condition => some (.whileTrue condition)
  | .doWhile condition => some (.doWhile condition)
  | .ifTrue _ => none

section
variable {m m' : Machine} (hr : m'.registers = m.registers) (hm : m'.memory = m.memory)
include hr hm

theorem Guard.goes_congr (k : Nat) (guard : Guard) : guard.goes m' k = guard.goes m k := by
  cases guard with
  | times count => rfl
  | whileTrue c => exact Machine.holds_congr hr hm c
  | doWhile c => simp only [Guard.goes, Machine.holds_congr hr hm]

theorem Header.guard?_congr (header : Header) : header.guard? m' = header.guard? m := by
  cases header with
  | times count => simp only [Header.guard?, Machine.value_congr hr hm]
  | _ => rfl

end

/-- What a machine can be busy with: a statement on a line, the rest of a loop after a number of
bodies, or the rest of a function body. -/
inductive Task where
  | statement (line : Nat) (s : Statement)
  | loop (line : Nat) (guard : Guard) (body : Statement) (iteration : Nat)
  | code (body : List Instruction)

/-- The rules of execution, with the number of started statements. -/
inductive Evaluates : Task → Machine → Nat → Outcome → Prop
  | exhausted {line s m} (hs : m.limits.maxSteps ≤ m.steps) :
      Evaluates (.statement line s) m 0 (m.fail line (.budgetExhausted m.limits.maxSteps))
  -- nothing is called, so `call` may be anything
  | action {line text a m call} (hs : m.steps < m.limits.maxSteps) (ha : a.callee? = none) :
      Evaluates (.statement line (.simple text a)) m 1 (a.exec call line m.tick)
  | refused {line text f m cause} (hs : m.steps < m.limits.maxSteps)
      (hf : m.tick.entry f = .error cause) :
      Evaluates (.statement line (.simple text (.call f))) m 1 (m.tick.fail line cause)
  | called {line text f m body n o} (hs : m.steps < m.limits.maxSteps)
      (hf : m.tick.entry f = .ok body) (hb : Evaluates (.code body) (m.tick.enter f line) n o) :
      Evaluates (.statement line (.simple text (.call f))) m (n + 1) o.leave
  | skipped {line text c body m} (hs : m.steps < m.limits.maxSteps)
      (hc : m.tick.holds c = false) :
      Evaluates (.statement line (.block text (.ifTrue c) body)) m 1 ⟨m.tick, none⟩
  | taken {line text c body m n o} (hs : m.steps < m.limits.maxSteps)
      (hc : m.tick.holds c = true) (hb : Evaluates (.statement line body) m.tick n o) :
      Evaluates (.statement line (.block text (.ifTrue c) body)) m (n + 1) o
  | looped {line text header body m guard n o} (hs : m.steps < m.limits.maxSteps)
      (hg : header.guard? m.tick = some guard)
      (hl : Evaluates (.loop line guard body 0) m.tick n o) :
      Evaluates (.statement line (.block text header body)) m (n + 1) o
  | loopEnds {line guard body k m} (hg : guard.goes m k = false) :
      Evaluates (.loop line guard body k) m 0 ⟨m, none⟩
  | loopGoes {line guard body k m m' n n' o} (hg : guard.goes m k = true)
      (hb : Evaluates (.statement line body) m n ⟨m', none⟩)
      (hl : Evaluates (.loop line guard body (k + 1)) m' n' o) :
      Evaluates (.loop line guard body k) m (n + n') o
  | loopFails {line guard body k m m' n e} (hg : guard.goes m k = true)
      (hb : Evaluates (.statement line body) m n ⟨m', some e⟩) :
      Evaluates (.loop line guard body k) m n (.inLoop line k m' e)
  | codeEnds {m} : Evaluates (.code []) m 0 ⟨m, none⟩
  | codeGoes {i rest m n n' o o'} (hi : Evaluates (.statement i.line i.statement) m n o)
      (hf : o.isFatal = false) (hr : Evaluates (.code rest) o.kept n' o') :
      Evaluates (.code (i :: rest)) m (n + n') o'
  | codeStops {i rest m n o} (hi : Evaluates (.statement i.line i.statement) m n o)
      (hf : o.isFatal = true) :
      Evaluates (.code (i :: rest)) m n o

namespace Evaluates

variable {t : Task} {m : Machine} {n : Nat} {o : Outcome}

/-- A task has at most one outcome. -/
theorem unique {n' : Nat} {o' : Outcome} (h : Evaluates t m n o) (h' : Evaluates t m n' o') :
    n = n' ∧ o = o' := by
  induction h generalizing n' o' with
  | exhausted hs =>
    cases h' with
    | exhausted => exact ⟨rfl, rfl⟩
    | _ => omega
  | action hs ha =>
    cases h' with
    | exhausted => omega
    | action => exact ⟨rfl, Action.exec_call_irrel ha _ _ _ _⟩
    | refused => cases ha
    | called => cases ha
  | refused hs hf =>
    cases h' with
    | exhausted => omega
    | action _ ha => cases ha
    | refused _ hf' => rw [hf] at hf'; cases hf'; exact ⟨rfl, rfl⟩
    | called _ hf' => rw [hf] at hf'; cases hf'
  | called hs hf _ ih =>
    cases h' with
    | exhausted => omega
    | action _ ha => cases ha
    | refused _ hf' => rw [hf] at hf'; cases hf'
    | called _ hf' hb' =>
      rw [hf] at hf'; cases hf'
      obtain ⟨rfl, rfl⟩ := ih hb'
      exact ⟨rfl, rfl⟩
  | skipped hs hc =>
    cases h' with
    | exhausted => omega
    | skipped => exact ⟨rfl, rfl⟩
    | taken _ hc' => rw [hc] at hc'; cases hc'
    | looped _ hg => cases hg
  | taken hs hc _ ih =>
    cases h' with
    | exhausted => omega
    | skipped _ hc' => rw [hc] at hc'; cases hc'
    | taken _ _ hb' => obtain ⟨rfl, rfl⟩ := ih hb'; exact ⟨rfl, rfl⟩
    | looped _ hg => cases hg
  | looped hs hg _ ih =>
    cases h' with
    | exhausted => omega
    | skipped => cases hg
    | taken => cases hg
    | looped _ hg' hl' =>
      rw [hg] at hg'; cases hg'
      obtain ⟨rfl, rfl⟩ := ih hl'
      exact ⟨rfl, rfl⟩
  | loopEnds hg =>
    cases h' with
    | loopEnds => exact ⟨rfl, rfl⟩
    | loopGoes hg' => rw [hg] at hg'; cases hg'
    | loopFails hg' => rw [hg] at hg'; cases hg'
  | loopGoes hg _ _ ihb ihl =>
    cases h' with
    | loopEnds hg' => rw [hg] at hg'; cases hg'
    | loopGoes _ hb' hl' =>
      obtain ⟨rfl, ho⟩ := ihb hb'
      cases ho
      obtain ⟨rfl, rfl⟩ := ihl hl'
      exact ⟨rfl, rfl⟩
    | loopFails _ hb' => cases (ihb hb').2
  | loopFails hg _ ih =>
    cases h' with
    | loopEnds hg' => rw [hg] at hg'; cases hg'
    | loopGoes _ hb' => cases (ih hb').2
    | loopFails _ hb' =>
      obtain ⟨rfl, ho⟩ := ih hb'
      cases ho
      exact ⟨rfl, rfl⟩
  | codeEnds => cases h'; exact ⟨rfl, rfl⟩
  | codeGoes _ hf _ ihi ihr =>
    cases h' with
    | codeGoes hi' _ hr' =>
      obtain ⟨rfl, rfl⟩ := ihi hi'
      obtain ⟨rfl, rfl⟩ := ihr hr'
      exact ⟨rfl, rfl⟩
    | codeStops hi' hf' =>
      obtain ⟨rfl, rfl⟩ := ihi hi'
      rw [hf] at hf'; cases hf'
  | codeStops _ hf ih =>
    cases h' with
    | codeGoes hi' hf' =>
      obtain ⟨rfl, rfl⟩ := ih hi'
      rw [hf] at hf'; cases hf'
    | codeStops hi' => exact ih hi'

/-! ## What every evaluation keeps -/

/-- **Pieces make a whole.** What every piece of an execution respects holds between the start and
the end of a task. -/
theorem relates {R : Machine → Machine → Prop} (hR : Machine.Respected R)
    (h : Evaluates t m n o) : R m o.machine := by
  induction h with
  | exhausted hs => exact hR.refl _
  | action hs ha => exact hR.trans (hR.tick _) (hR.action ha _ _ _)
  | refused hs hf => exact hR.tick _
  | called hs hf _ ih => exact hR.trans (hR.tick _) (hR.leave ih)
  | skipped hs hc => exact hR.tick _
  | taken hs hc _ ih => exact hR.trans (hR.tick _) ih
  | looped hs hg _ ih => exact hR.trans (hR.tick _) ih
  | loopEnds hg => exact hR.refl _
  | loopGoes hg _ _ ihb ihl => exact hR.trans ihb ihl
  | loopFails hg _ ih => rw [Outcome.machine_inLoop]; exact ih
  | codeEnds => exact hR.refl _
  | codeGoes _ hf _ ihi ihr => exact hR.trans (hR.trans ihi (hR.kept _)) ihr
  | codeStops _ hf ih => exact ih

theorem grows (h : Evaluates t m n o) : m.Grows o.machine :=
  h.relates Machine.Grows.respected

/-- The step counter counts the started statements. -/
theorem steps (h : Evaluates t m n o) : o.machine.steps = m.steps + n := by
  induction h with
  | exhausted hs => rfl
  | action hs ha => exact (Action.exec_effect ha _ _ _).steps
  | refused hs hf => rfl
  | called hs hf _ ih =>
    show (Outcome.leave _).machine.steps = _
    simp only [Outcome.leave, ih, Machine.enter, Machine.tick]; omega
  | skipped hs hc => rfl
  | taken hs hc _ ih => rw [ih]; simp only [Machine.tick]; omega
  | looped hs hg _ ih => rw [ih]; simp only [Machine.tick]; omega
  | loopEnds hg => rfl
  | loopGoes hg _ _ ihb ihl => rw [ihl, ihb]; omega
  | loopFails hg _ ih => rw [Outcome.machine_inLoop]; exact ih
  | codeEnds => rfl
  | codeGoes _ hf _ ihi ihr => rw [ihr, Outcome.kept_steps, ihi]; omega
  | codeStops _ hf ih => exact ih

/-- What is started is within the budget. -/
theorem le_budget (h : Evaluates t m n o) : n ≤ m.budget := by
  induction h with
  | exhausted hs => exact Nat.zero_le _
  | action hs ha => simp only [Machine.budget]; omega
  | refused hs hf => simp only [Machine.budget]; omega
  | called hs hf _ ih => simp only [Machine.budget, Machine.enter, Machine.tick] at ih ⊢; omega
  | skipped hs hc => simp only [Machine.budget]; omega
  | taken hs hc _ ih => simp only [Machine.budget, Machine.tick] at ih ⊢; omega
  | looped hs hg _ ih => simp only [Machine.budget, Machine.tick] at ih ⊢; omega
  | loopEnds hg => exact Nat.zero_le _
  | loopGoes hg hb _ ihb ihl =>
    have hs := hb.steps
    have hl := hb.grows.limits
    simp only [Machine.budget] at ihb ihl hs hl ⊢
    rw [hl, hs] at ihl; omega
  | loopFails hg _ ih => exact ih
  | codeEnds => exact Nat.zero_le _
  | codeGoes hi hf _ ihi ihr =>
    have hs := hi.steps
    have hl := hi.grows.limits
    simp only [Machine.budget, Outcome.kept_limits, Outcome.kept_steps] at ihi ihr ⊢
    rw [hl, hs] at ihr; omega
  | codeStops _ hf ih => exact ih

/-- The budget is never overdrawn. -/
theorem steps_le (h : Evaluates t m n o) (hs : m.steps ≤ m.limits.maxSteps) :
    o.machine.steps ≤ m.limits.maxSteps := by
  have h1 := h.steps
  have h2 := h.le_budget
  unfold Machine.budget at h2
  omega

/-- A statement that succeeds was started. -/
theorem pos {line : Nat} {s : Statement} {m' : Machine}
    (h : Evaluates (.statement line s) m n ⟨m', none⟩) : 0 < n := by
  generalize ho : (⟨m', none⟩ : Outcome) = o at h
  cases h with
  | exhausted hs => cases ho
  | action hs ha => exact Nat.one_pos
  | refused hs hf => exact Nat.one_pos
  | skipped hs hc => exact Nat.one_pos
  | called | taken | looped => exact Nat.succ_pos _

theorem room (h : Evaluates t m n o) : o.machine.room = m.room := by
  unfold Machine.room
  rw [h.grows.limits, h.grows.frames]

end Evaluates

/-! ## The interpreter follows the rules

`room` is the number of calls that may still be entered. It is the same before and after a task, so
the machines of one loop or one body all have the same. -/

/-- From a number of bodies on, the guard asks nothing but the condition. -/
def Guard.Tests (guard : Guard) (condition : Condition) (first : Nat) : Prop :=
  ∀ m k, first ≤ k → guard.goes m k = m.holds condition

theorem Guard.tests_whileTrue (c : Condition) : (Guard.whileTrue c).Tests c 0 :=
  fun _ _ _ => rfl

theorem Guard.tests_doWhile (c : Condition) : (Guard.doWhile c).Tests c 1 := by
  intro m k hk
  simp [Guard.goes, show k ≠ 0 by omega]

/-- `exec` computes a statement on every machine with that much room. -/
def ComputesStatement (room line : Nat) (s : Statement) (exec : Machine → Outcome) : Prop :=
  ∀ m, m.room = room → ∃ n, Evaluates (.statement line s) m n (exec m)

/-- `call` computes calls on every machine with that much room. -/
def ComputesCalls (room : Nat) (call : String → Nat → Machine → Outcome) : Prop :=
  ∀ f line m, m.room = room →
    (∃ cause, m.entry f = .error cause ∧ call f line m = m.fail line cause) ∨
    (∃ body n o, m.entry f = .ok body ∧ Evaluates (.code body) (m.enter f line) n o ∧
      call f line m = o.leave)

section
variable {room line : Nat} {s : Statement} {exec : Machine → Outcome}

theorem evaluates_repeatTimes (hb : ComputesStatement room line s exec) :
    ∀ count k m, m.room = room →
      ∃ n, Evaluates (.loop line (.times (k + count)) s k) m n
        (repeatTimes exec line count k m) := by
  intro count
  induction count with
  | zero => intro k m _; exact ⟨0, .loopEnds (by simp [Guard.goes])⟩
  | succ count ih =>
    intro k m hm
    obtain ⟨n, hn⟩ := hb m hm
    have hg : (Guard.times (k + (count + 1))).goes m k = true := by simp [Guard.goes]
    unfold repeatTimes
    split
    · rename_i m' he
      rw [he] at hn
      obtain ⟨n', hn'⟩ := ih (k + 1) m' (hn.room.trans hm)
      rw [show k + 1 + count = k + (count + 1) by omega] at hn'
      exact ⟨n + n', .loopGoes hg hn hn'⟩
    · rename_i m' e he
      rw [he] at hn
      exact ⟨n, .loopFails hg hn⟩

/-- The bound of the loop is never met: a body that succeeds has taken a step, so when the bound
reaches zero the budget is gone and the body fails. -/
theorem evaluates_repeatWhile (hb : ComputesStatement room line s exec) {guard : Guard}
    {condition : Condition} {first : Nat} (hg : guard.Tests condition first) :
    ∀ bound k m, first ≤ k → m.room = room → m.budget ≤ bound →
      ∃ n, Evaluates (.loop line guard s k) m n (repeatWhile exec condition line bound k m) := by
  intro bound
  induction bound with
  | zero => ?_
  | succ bound ih => ?_
  all_goals
    intro k m hk hm hbound
    have hgoes := hg m k hk
    unfold repeatWhile
    split
    case isFalse hc => exact ⟨0, .loopEnds (hgoes.trans (by simpa using hc))⟩
    rename_i hc
    obtain ⟨n, hn⟩ := hb m hm
    split
    case h_2 m' e he => rw [he] at hn; exact ⟨n, .loopFails (hgoes.trans hc) hn⟩
    rename_i m' he
    rw [he] at hn
    have hpos := hn.pos
    have hle := hn.le_budget
  · omega
  · have hs : m'.steps = m.steps + n := hn.steps
    have hl : m'.limits = m.limits := hn.grows.limits
    have hbound' : m'.budget ≤ bound := by
      simp only [Machine.budget, hl, hs] at hbound ⊢; omega
    obtain ⟨n', hn'⟩ := ih (k + 1) m' (by omega) (hn.room.trans hm) hbound'
    exact ⟨n + n', .loopGoes (hgoes.trans hc) hn hn'⟩

theorem evaluates_repeatDoWhile (hb : ComputesStatement room line s exec) (condition : Condition)
    {m : Machine} (hm : m.room = room) :
    ∃ n, Evaluates (.loop line (.doWhile condition) s 0) m n
      (repeatDoWhile exec condition line m) := by
  obtain ⟨n, hn⟩ := hb m hm
  unfold repeatDoWhile
  split
  · rename_i m' he
    rw [he] at hn
    obtain ⟨n', hn'⟩ := evaluates_repeatWhile hb (Guard.tests_doWhile condition) m'.budget 1 m'
      (Nat.le_refl _) (hn.room.trans hm) (Nat.le_refl _)
    exact ⟨n + n', .loopGoes rfl hn hn'⟩
  · rename_i m' e he
    rw [he] at hn
    exact ⟨n, .loopFails rfl hn⟩

end

section
variable {room : Nat} {call : String → Nat → Machine → Outcome}

theorem evaluates_exec (hc : ComputesCalls room call) (line : Nat) :
    ∀ s, ComputesStatement room line s (s.exec call line) := by
  intro s
  induction s with
  | simple text a =>
    intro m hm
    unfold Statement.exec Machine.withStep
    split
    · rename_i hs; exact ⟨0, .exhausted hs⟩
    · rename_i hs
      have hs : m.steps < m.limits.maxSteps := Nat.lt_of_not_le hs
      cases ha : a.callee? with
      | none => exact ⟨1, .action hs ha⟩
      | some f =>
        obtain rfl : a = .call f := by cases a <;> cases ha; rfl
        rcases hc f line m.tick hm with ⟨cause, hf, he⟩ | ⟨body, n, o, hf, hb, he⟩
        · exact ⟨1, by show Evaluates _ _ _ (call f line m.tick); rw [he]; exact .refused hs hf⟩
        · exact ⟨n + 1, by
            show Evaluates _ _ _ (call f line m.tick); rw [he]; exact .called hs hf hb⟩
  | block text header body ih =>
    intro m hm
    unfold Statement.exec Machine.withStep
    split
    · rename_i hs; exact ⟨0, .exhausted hs⟩
    · rename_i hs
      have hs : m.steps < m.limits.maxSteps := Nat.lt_of_not_le hs
      cases header with
      | ifTrue c =>
        by_cases h : m.tick.holds c = true
        · obtain ⟨n, hn⟩ := ih m.tick hm
          refine ⟨n + 1, ?_⟩
          show Evaluates _ _ _ (if m.tick.holds c = true then _ else _)
          rw [if_pos h]
          exact .taken hs h hn
        · refine ⟨1, ?_⟩
          show Evaluates _ _ _ (if m.tick.holds c = true then _ else _)
          rw [if_neg h]
          exact .skipped hs (by simpa using h)
      | times count =>
        obtain ⟨n, hn⟩ := evaluates_repeatTimes ih (m.tick.value count).toInt.toNat 0 m.tick hm
        rw [Nat.zero_add] at hn
        exact ⟨n + 1, .looped hs rfl hn⟩
      | whileTrue c =>
        obtain ⟨n, hn⟩ := evaluates_repeatWhile ih (Guard.tests_whileTrue c) m.tick.budget 0 m.tick
          (Nat.le_refl _) hm (Nat.le_refl _)
        exact ⟨n + 1, .looped hs rfl hn⟩
      | doWhile c =>
        obtain ⟨n, hn⟩ := evaluates_repeatDoWhile ih c (m := m.tick) hm
        exact ⟨n + 1, .looped hs rfl hn⟩

theorem execBody_cons (i : Instruction) (rest : List Instruction) (m : Machine) :
    execBody call (i :: rest) m =
      if (i.statement.exec call i.line m).isFatal then i.statement.exec call i.line m
      else execBody call rest (i.statement.exec call i.line m).kept := by
  rw [execBody]
  split
  · rename_i m' he
    rw [he]; rfl
  · rename_i m' e he
    rw [he]; rfl

theorem evaluates_execBody (hc : ComputesCalls room call) :
    ∀ body m, m.room = room → ∃ n, Evaluates (.code body) m n (execBody call body m) := by
  intro body
  induction body with
  | nil => intro m _; exact ⟨0, .codeEnds⟩
  | cons i rest ih =>
    intro m hm
    obtain ⟨n, hn⟩ := evaluates_exec hc i.line i.statement m hm
    rw [execBody_cons]
    split
    · rename_i hf; exact ⟨n, .codeStops hn hf⟩
    · rename_i hf
      have hr : (i.statement.exec call i.line m).kept.room = room := by
        rw [← hm, ← hn.room]
        simp only [Machine.room, Outcome.kept_limits, Outcome.kept_frames]
      obtain ⟨n', hn'⟩ := ih _ hr
      exact ⟨n + n', .codeGoes hn (by simpa using hf) hn'⟩

end

/-- The room that `callWithin` is given is all it needs: it runs out exactly when the active calls
have reached the limit. -/
theorem computesCalls_callWithin : ∀ room, ComputesCalls room (Machine.callWithin room) := by
  intro room
  induction room with
  | zero =>
    intro f line m hm
    left
    unfold Machine.room at hm
    exact ⟨_, by unfold Machine.entry; rw [if_pos (by omega)], rfl⟩
  | succ room ih =>
    intro f line m hm
    unfold Machine.room at hm
    have hd : ¬ m.limits.callDepth ≤ m.frames.length := by omega
    unfold Machine.callWithin Machine.entry
    rw [if_neg hd]
    cases hf : m.functions.get? f with
    | none => exact Or.inl ⟨_, rfl, rfl⟩
    | some body =>
      right
      have hr : (m.enter f line).room = room := by
        simp only [Machine.room, Machine.enter, List.length_cons]; omega
      obtain ⟨n, hn⟩ := evaluates_execBody ih body (m.enter f line) hr
      exact ⟨body, n, _, rfl, hn, rfl⟩

theorem evaluates_execute (m : Machine) (i : Instruction) :
    ∃ n, Evaluates (.statement i.line i.statement) m n (m.execute i) :=
  evaluates_exec (computesCalls_callWithin m.room) i.line i.statement m rfl

theorem Evaluates.execute_eq {m : Machine} {i : Instruction} {n : Nat} {o : Outcome}
    (h : Evaluates (.statement i.line i.statement) m n o) : m.execute i = o := by
  obtain ⟨n', hn'⟩ := evaluates_execute m i
  exact (hn'.unique h).2

/-- Every task on every machine comes to an end. -/
theorem exists_evaluates (t : Task) (m : Machine) : ∃ n o, Evaluates t m n o := by
  have hc := computesCalls_callWithin m.room
  cases t with
  | statement line s =>
    obtain ⟨n, hn⟩ := evaluates_exec hc line s m rfl
    exact ⟨n, _, hn⟩
  | code body =>
    obtain ⟨n, hn⟩ := evaluates_execBody hc body m rfl
    exact ⟨n, _, hn⟩
  | loop line guard s k =>
    have hb := evaluates_exec hc line s
    cases guard with
    | times count =>
      by_cases h : k < count
      · obtain ⟨n, hn⟩ := evaluates_repeatTimes hb (count - k) k m rfl
        rw [show k + (count - k) = count by omega] at hn
        exact ⟨n, _, hn⟩
      · exact ⟨0, _, .loopEnds (by simpa [Guard.goes] using h)⟩
    | whileTrue c =>
      obtain ⟨n, hn⟩ := evaluates_repeatWhile hb (Guard.tests_whileTrue c) m.budget k m
        (Nat.zero_le _) rfl (Nat.le_refl _)
      exact ⟨n, _, hn⟩
    | doWhile c =>
      cases k with
      | zero =>
        obtain ⟨n, hn⟩ := evaluates_repeatDoWhile hb c (m := m) rfl
        exact ⟨n, _, hn⟩
      | succ k =>
        obtain ⟨n, hn⟩ := evaluates_repeatWhile hb (Guard.tests_doWhile c) m.budget (k + 1) m
          (by omega) rfl (Nat.le_refl _)
        exact ⟨n, _, hn⟩

end LineAsm
