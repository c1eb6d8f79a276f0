import LineAsm.Proofs.Inlining
import LineAsm.Proofs.Reachable

/-!
# Loops

A loop executes its body again and again, each time on the machine that the last body left, and the
bodies are what they are outside of loops. So the states at the heads of the bodies are those of
repeated execution (`Machine.after`). How many there are is for the header to say: a count is read
once, at the start, and a condition is asked in every state. A failing body ends the loop, and its
number is the number of bodies before it.

Results:
* `Machine.Succeeds.le_steps`: bodies in a row take at least as many steps.
* `Evaluates.loop_cases`: how the bodies of a loop follow each other.
* `Machine.LoopEnds`, `Machine.execute_loop`: the ways in which a loop can end.
* `loops_are_chains`: what follows for each kind of loop.
* `Machine.Ahead.after`, `Machine.run_replicate`: repeated execution one step later, and by a run.
* `loop_forms_agree`: the two loops with a condition, and a loop over a count against a run of as
  many copies of its body.
-/
namespace LineAsm

/-! ## Repeated execution -/

namespace Machine

/-- The machine after `k` executions of an instruction. -/
def after (m : Machine) (i : Instruction) : Nat → Machine
  | 0 => m
  | k + 1 => ((m.after i k).execute i).machine

/-- The first `k` executions of the instruction succeed. -/
def Succeeds (m : Machine) (i : Instruction) (k : Nat) : Prop :=
  ∀ j < k, ((m.after i j).execute i).error? = none

variable {m : Machine} {i : Instruction} {k : Nat}

/-- The first execution instead of the last one. -/
theorem after_succ (m : Machine) (i : Instruction) (k : Nat) :
    m.after i (k + 1) = (m.execute i).machine.after i k := by
  induction k with
  | zero => rfl
  | succ k ih =>
    show ((m.after i (k + 1)).execute i).machine = _
    rw [ih]
    rfl

theorem succeeds_zero (m : Machine) (i : Instruction) : m.Succeeds i 0 := nofun

theorem succeeds_succ (h : (m.execute i).error? = none)
    (hrest : (m.execute i).machine.Succeeds i k) : m.Succeeds i (k + 1) := by
  intro j hj
  cases j with
  | zero => exact h
  | succ j =>
    rw [after_succ]
    exact hrest j (by omega)

theorem Succeeds.of_le {j : Nat} (h : m.Succeeds i k) (hj : j ≤ k) : m.Succeeds i j :=
  fun l hl => h l (by omega)

theorem after_grows (m : Machine) (i : Instruction) (k : Nat) : m.Grows (m.after i k) := by
  induction k with
  | zero => exact .refl m
  | succ k ih => exact ih.trans ((m.after i k).execute_grows i)

theorem after_steps_le (h : m.steps ≤ m.limits.maxSteps) (i : Instruction) (k : Nat) :
    (m.after i k).steps ≤ m.limits.maxSteps := by
  induction k with
  | zero => exact h
  | succ k ih =>
    obtain ⟨n, hn⟩ := evaluates_execute (m.after i k) i
    have hlimits := (m.after_grows i k).limits
    have hle := hn.steps_le (by rw [hlimits]; exact ih)
    rwa [hlimits] at hle

/-- Every execution that succeeds has taken a step. -/
theorem Succeeds.le_steps (h : m.Succeeds i k) : m.steps + k ≤ (m.after i k).steps := by
  induction k with
  | zero => exact Nat.le_refl _
  | succ k ih =>
    have hbefore := ih (h.of_le (Nat.le_succ k))
    obtain ⟨n, hn⟩ := evaluates_execute (m.after i k) i
    have hsteps := hn.steps
    have hnone := h k (Nat.lt_succ_self k)
    generalize ho : (m.after i k).execute i = o at hn hsteps hnone
    obtain ⟨m', error⟩ := o
    cases hnone
    have hpos := hn.pos
    show _ ≤ ((m.after i k).execute i).machine.steps
    rw [ho]
    omega

theorem Succeeds.le_sub_steps (h : m.Succeeds i k) : k ≤ (m.after i k).steps - m.steps :=
  Nat.le_sub_of_add_le' h.le_steps

/-- One more execution, with success or without. -/
theorem Succeeds.le_sub_steps_execute (h : m.Succeeds i k) :
    k ≤ ((m.after i k).execute i).machine.steps - m.steps :=
  Nat.le_trans h.le_sub_steps (Nat.sub_le_sub_right ((m.after i k).execute_grows i).steps _)

end Machine

/-! ## How loops end -/

/-- **Ends of a loop.** From any number of bodies on, a loop executes some bodies with success, each
when its guard says so, and then the guard says no or a body fails. -/
theorem Evaluates.loop_cases {line k n : Nat} {guard : Guard} {body : Statement} {m : Machine}
    {o : Outcome} (h : Evaluates (.loop line guard body k) m n o) :
    ∃ j, m.Succeeds ⟨line, body⟩ j ∧
      (∀ l < j, guard.goes (m.after ⟨line, body⟩ l) (k + l) = true) ∧
      ((guard.goes (m.after ⟨line, body⟩ j) (k + j) = false ∧ o = ⟨m.after ⟨line, body⟩ j, none⟩) ∨
       (guard.goes (m.after ⟨line, body⟩ j) (k + j) = true ∧
        ∃ m' e, (m.after ⟨line, body⟩ j).execute ⟨line, body⟩ = ⟨m', some e⟩ ∧
          o = .inLoop line (k + j) m' e)) := by
  generalize ht : Task.loop line guard body k = t at h
  induction h generalizing k with
  | loopEnds hg =>
    cases ht
    exact ⟨0, Machine.succeeds_zero _ _, nofun, .inl ⟨hg, rfl⟩⟩
  | @loopGoes _ _ _ k m m' _ _ o hg hb _ _ ihl =>
    cases ht
    -- seen from before the first body, the states of the rest are one later
    have hfirst : m.execute ⟨line, body⟩ = ⟨m', none⟩ := hb.execute_eq
    have hafter : ∀ l, m.after ⟨line, body⟩ (l + 1) = m'.after ⟨line, body⟩ l := by
      intro l
      rw [Machine.after_succ, hfirst]
    obtain ⟨j, hsucceeds, hgoes, hend⟩ := ihl rfl
    refine ⟨j + 1, ?_, ?_, ?_⟩
    · refine Machine.succeeds_succ ?_ ?_
      · rw [hfirst]
      · rw [hfirst]
        exact hsucceeds
    · intro l hl
      cases l with
      | zero => exact hg
      | succ l =>
        rw [hafter, show k + (l + 1) = k + 1 + l by omega]
        exact hgoes l (by omega)
    · rw [hafter, show k + (j + 1) = k + 1 + j by omega]
      exact hend
  | @loopFails _ _ _ _ m m' _ e hg hb _ =>
    cases ht
    exact ⟨0, Machine.succeeds_zero _ _, nofun, .inr ⟨hg, m', e, hb.execute_eq, rfl⟩⟩
  | _ => cases ht

def Header.isLoop : Header → Bool
  | .ifTrue _ => false
  | _ => true

def Statement.isLoop : Statement → Bool
  | simple .. => false
  | block _ header _ => header.isLoop

theorem Header.exists_guard {header : Header} (h : header.isLoop = true) (m : Machine) :
    ∃ guard, header.guard? m = some guard := by
  cases header with
  | ifTrue c => cases h
  | _ => exact ⟨_, rfl⟩

/-- What a loop of this kind asks of the states at the heads of its bodies when it ends after `n` of
them. The count is the one in the first state. -/
def Header.Ends (s : Nat → Machine) (n : Nat) : Header → Prop
  | .times count => (n : Int) = max 0 ((s 0).value count).toInt
  | .whileTrue c => (∀ j < n, (s j).holds c = true) ∧ (s n).holds c = false
  | .doWhile c => 1 ≤ n ∧ (∀ j, 1 ≤ j → j < n → (s j).holds c = true) ∧ (s n).holds c = false
  | .ifTrue _ => False

/-- What it asks of them when a body starts after `k` others. -/
def Header.Starts (s : Nat → Machine) (k : Nat) : Header → Prop
  | .times count => (k : Int) < max 0 ((s 0).value count).toInt
  | .whileTrue c => ∀ j ≤ k, (s j).holds c = true
  | .doWhile c => ∀ j, 1 ≤ j → j ≤ k → (s j).holds c = true
  | .ifTrue _ => False

section
variable {header : Header} {guard : Guard} {s : Nat → Machine} {k : Nat}
  (hguard : header.guard? (s 0) = some guard) (hbefore : ∀ j < k, guard.goes (s j) j = true)
include hguard hbefore

theorem Header.ends_of_guard (hend : guard.goes (s k) k = false) : header.Ends s k := by
  cases header with
  | ifTrue c => cases hguard
  | times count =>
    cases hguard
    simp only [Guard.goes, decide_eq_true_eq, decide_eq_false_iff_not] at hbefore hend
    -- `k` is not below the count, and all numbers below `k` are
    have hle : k ≤ ((s 0).value count).toInt.toNat := by
      cases k with
      | zero => exact Nat.zero_le _
      | succ k => exact hbefore k (Nat.lt_succ_self k)
    simp only [Header.Ends]
    omega
  | whileTrue c =>
    cases hguard
    exact ⟨hbefore, hend⟩
  | doWhile c =>
    cases hguard
    simp only [Guard.goes, Bool.or_eq_true, beq_iff_eq, Bool.or_eq_false_iff,
      beq_eq_false_iff_ne] at hbefore hend
    refine ⟨by omega, ?_, hend.2⟩
    intro j hj hjk
    exact (hbefore j hjk).resolve_left (by omega)

theorem Header.starts_of_guard (hgoes : guard.goes (s k) k = true) : header.Starts s k := by
  have hall : ∀ j ≤ k, guard.goes (s j) j = true := by
    intro j hj
    rcases Nat.lt_or_eq_of_le hj with hlt | rfl
    · exact hbefore j hlt
    · exact hgoes
  cases header with
  | ifTrue c => cases hguard
  | times count =>
    cases hguard
    simp only [Guard.goes, decide_eq_true_eq] at hgoes
    simp only [Header.Starts]
    omega
  | whileTrue c =>
    cases hguard
    exact hall
  | doWhile c =>
    cases hguard
    simp only [Guard.goes, Bool.or_eq_true, beq_iff_eq] at hall
    intro j hj hjk
    exact (hall j hjk).resolve_left (by omega)

end

/-- The ways in which a loop can end. Without budget it does not start; otherwise it takes a step
and executes some bodies with success, and then its header says that it is done, or another body
starts and fails, for good or locally. -/
inductive Machine.LoopEnds (m : Machine) (line : Nat) (header : Header) (body : Statement) :
    Outcome → Prop
  | exhausted (hs : m.limits.maxSteps ≤ m.steps) :
      LoopEnds m line header body (m.fail line (.budgetExhausted m.limits.maxSteps))
  | done {k} (hk : m.tick.Succeeds ⟨line, body⟩ k)
      (hends : header.Ends (m.tick.after ⟨line, body⟩) k) :
      LoopEnds m line header body ⟨m.tick.after ⟨line, body⟩ k, none⟩
  | cut {k m' e} (hk : m.tick.Succeeds ⟨line, body⟩ k)
      (hstarts : header.Starts (m.tick.after ⟨line, body⟩) k)
      (hfails : (m.tick.after ⟨line, body⟩ k).execute ⟨line, body⟩ = ⟨m', some e⟩)
      (hf : e.isFatal = true) : LoopEnds m line header body ⟨m', some e⟩
  | failed {k m' e} (hk : m.tick.Succeeds ⟨line, body⟩ k)
      (hstarts : header.Starts (m.tick.after ⟨line, body⟩) k)
      (hfails : (m.tick.after ⟨line, body⟩ k).execute ⟨line, body⟩ = ⟨m', some e⟩)
      (hf : e.isFatal = false) :
      LoopEnds m line header body ⟨m', some ⟨.inLoop k e.cause, line, m.frames⟩⟩

theorem Machine.execute_exhausted {m : Machine} (hs : m.limits.maxSteps ≤ m.steps)
    (i : Instruction) : m.execute i = m.fail i.line (.budgetExhausted m.limits.maxSteps) :=
  Evaluates.execute_eq (.exhausted hs)

/-- **How loops end.** Every loop on every machine ends in one of these ways. -/
theorem Machine.execute_loop (m : Machine) (line : Nat) (text : String) {header : Header}
    (hloop : header.isLoop = true) (body : Statement) :
    m.LoopEnds line header body (m.execute ⟨line, .block text header body⟩) := by
  rcases Nat.lt_or_ge m.steps m.limits.maxSteps with hs | hs
  · obtain ⟨guard, hguard⟩ := Header.exists_guard hloop m.tick
    obtain ⟨n, o, hl⟩ := exists_evaluates (.loop line guard body 0) m.tick
    have ho : m.execute ⟨line, .block text header body⟩ = o :=
      Evaluates.execute_eq (.looped hs hguard hl)
    rw [ho]
    obtain ⟨k, hk, hgoes, hend⟩ := hl.loop_cases
    simp only [Nat.zero_add] at hgoes hend
    rcases hend with ⟨hno, rfl⟩ | ⟨hyes, m', e, hfails, rfl⟩
    · exact .done hk (Header.ends_of_guard (s := m.tick.after ⟨line, body⟩) hguard hgoes hno)
    · have hstarts := Header.starts_of_guard (s := m.tick.after ⟨line, body⟩) hguard hgoes hyes
      cases hf : e.isFatal with
      | true =>
        rw [Outcome.inLoop_fatal hf]
        exact .cut hk hstarts hfails hf
      | false =>
        have hgrows := (m.tick.after ⟨line, body⟩ k).execute_grows ⟨line, body⟩
        rw [hfails] at hgrows
        have hframes : m'.frames = m.frames :=
          hgrows.frames.trans (m.tick.after_grows ⟨line, body⟩ k).frames
        rw [Outcome.inLoop_local hf, Machine.fail, Machine.errorAt, hframes]
        exact .failed hk hstarts hfails hf
  · rw [execute_exhausted hs]
    exact .exhausted hs

/-- The local error of a loop is the failure of one of its bodies. -/
theorem Machine.execute_loop_error {m : Machine} {line : Nat} {s : Statement}
    (hs : s.isLoop = true) {e : ExecError} (he : (m.execute ⟨line, s⟩).error? = some e)
    (hf : e.isFatal = false) : ∃ k inner, e.cause = .inLoop k inner := by
  cases s with
  | simple text a => cases hs
  | block text header body =>
    have hend := m.execute_loop line text hs body
    generalize m.execute ⟨line, .block text header body⟩ = o at hend he
    cases hend with
    | exhausted => cases he; cases hf
    | done => cases he
    | cut _ _ _ hfatal =>
      cases he
      rw [hf] at hfatal
      cases hfatal
    | @failed k _ e' => cases he; exact ⟨k, e'.cause, rfl⟩

/-- **Loops are chains of bodies.** Let `s 0`, `s 1`, … be the states that executing the body again
and again leads to, from the step of the loop on. A loop that returns no error has executed some
number of bodies with success, has come to the last of these states, and the number and the states
are as its kind asks. A loop that fails locally reports the number of bodies that succeeded and the
cause of the next one, which its kind let start; the machine is as that body left it, and if the
body is a loop itself, so is the cause. A loop that ends with the budget does so in its own step or
in one of its bodies. Bodies in a row take at least as many steps, so their number is within the
budget, and fits into the same word. -/
theorem loops_are_chains (m : Machine) (line : Nat) (text : String) {header : Header}
    (hloop : header.isLoop = true) (body : Statement) :
    let once : Instruction := ⟨line, body⟩
    let s := m.tick.after once
    let o := m.execute ⟨line, .block text header body⟩
    (o.error? = none →
      ∃ n, m.tick.Succeeds once n ∧ o.machine = s n ∧ header.Ends s n ∧
        n ≤ o.machine.steps - m.tick.steps) ∧
    (∀ e, o.error? = some e → e.isFatal = false →
      ∃ k e', e = ⟨.inLoop k e'.cause, line, m.frames⟩ ∧ m.tick.Succeeds once k ∧
        (s k).execute once = ⟨o.machine, some e'⟩ ∧ header.Starts s k ∧
        (body.isLoop = true → ∃ k' inner, e'.cause = .inLoop k' inner) ∧
        k ≤ o.machine.steps - m.tick.steps) ∧
    (∀ e, o.error? = some e → e.isFatal = true →
      m.limits.maxSteps ≤ m.steps ∨
      ∃ k, m.tick.Succeeds once k ∧ (s k).execute once = o ∧ header.Starts s k ∧
        k ≤ o.machine.steps - m.tick.steps) ∧
    (m.steps < m.limits.maxSteps → ∀ k, m.tick.Succeeds once k →
      k ≤ (s k).steps - m.tick.steps ∧ (s k).steps ≤ m.limits.maxSteps ∧
        (m.limits.maxSteps < UInt64.size → k < UInt64.size)) := by
  intro once s o
  have hbudget : m.steps < m.limits.maxSteps → ∀ k, m.tick.Succeeds once k →
      k ≤ (s k).steps - m.tick.steps ∧ (s k).steps ≤ m.limits.maxSteps ∧
        (m.limits.maxSteps < UInt64.size → k < UInt64.size) := by
    intro hs k hk
    have hcount : k ≤ (s k).steps - m.tick.steps := hk.le_sub_steps
    have hle : (s k).steps ≤ m.limits.maxSteps := m.tick.after_steps_le hs once k
    exact ⟨hcount, hle, by omega⟩
  have hend : m.LoopEnds line header body o := m.execute_loop line text hloop body
  clear_value o
  cases hend with
  | exhausted hs =>
    refine ⟨nofun, ?_, fun _ _ _ => .inl hs, hbudget⟩
    intro e he hlocal
    cases he
    cases hlocal
  | done hk hends =>
    exact ⟨fun _ => ⟨_, hk, rfl, hends, hk.le_sub_steps⟩, nofun, nofun, hbudget⟩
  | cut hk hstarts hfails hf =>
    have hcount := hk.le_sub_steps_execute
    rw [hfails] at hcount
    refine ⟨nofun, ?_, fun _ _ _ => .inr ⟨_, hk, hfails, hstarts, hcount⟩, hbudget⟩
    intro e he hlocal
    cases he
    rw [hf] at hlocal
    cases hlocal
  | @failed k m' e' hk hstarts hfails hf =>
    have hcount := hk.le_sub_steps_execute
    rw [hfails] at hcount
    have hinner : body.isLoop = true → ∃ k' inner, e'.cause = .inLoop k' inner := by
      intro hbody
      have he' : ((s k).execute once).error? = some e' := by rw [hfails]
      exact Machine.execute_loop_error hbody he' hf
    refine ⟨nofun, ?_, ?_, hbudget⟩
    · intro e he _
      cases he
      exact ⟨k, e', rfl, hk, hfails, hstarts, hinner, hcount⟩
    · intro e he hfatal
      cases he
      cases hfatal

/-- A machine with 2 in the register that the loops below count by and pop into. -/
def countdownMachine (stack : List Word) : Machine :=
  { Machine.fresh ⟨9, 0⟩ ∅ with stack }.store (.register "n") 2

def countdownOperand : Operand := .place (.register "n")

def countdownPop : Statement := .simple "pop n" (.pop (.register "n"))

def countdownBody : Statement :=
  .block "loop do-while n pop n" (.doWhile (.nonzero countdownOperand)) countdownPop

def countdownLoop : Instruction :=
  ⟨4, .block "loop for n loop do-while n pop n" (.times countdownOperand) countdownBody⟩

/-- The outer loop has two iterations, whatever its body pops. On the second stack the inner loop of
the second iteration fails in its own second one. -/
theorem loops_are_chains_countdown :
    let once : Instruction := ⟨4, countdownBody⟩
    let good := countdownMachine [1, 0, 0]
    let bad := countdownMachine [1, 0, 7]
    Header.isLoop (.times countdownOperand) = true ∧
    (good.execute countdownLoop).error? = none ∧
    (good.tick.Succeeds once 2 ∧
      (good.execute countdownLoop).machine = good.tick.after once 2) ∧
    (bad.execute countdownLoop).error? =
      some ⟨.inLoop 1 (.inLoop 1 .stackUnderflow), 4, []⟩ ∧
    bad.tick.Succeeds once 1 ∧
    ∃ e, e.cause = .inLoop 1 .stackUnderflow ∧
      (bad.tick.after once 1).execute once = ⟨(bad.execute countdownLoop).machine, some e⟩ := by
  intro once good bad
  have hgood : (good.execute countdownLoop).error? = none := by decide +kernel
  have hbad : (bad.execute countdownLoop).error? =
      some ⟨.inLoop 1 (.inLoop 1 .stackUnderflow), 4, []⟩ := by decide +kernel
  have hcount : (good.tick.value countdownOperand).toInt = 2 := by decide +kernel
  obtain ⟨n, hsucceeds, hmachine, hends, -⟩ :=
    (loops_are_chains good 4 "loop for n loop do-while n pop n" rfl countdownBody).1 hgood
  have hn : (n : Int) = max 0 (good.tick.value countdownOperand).toInt := hends
  obtain rfl : n = 2 := by
    rw [hcount] at hn
    omega
  obtain ⟨k, e, he, hsucceeds', hfails, -⟩ :=
    (loops_are_chains bad 4 "loop for n loop do-while n pop n" rfl countdownBody).2.1 _ hbad rfl
  injection he with hcause
  injection hcause with hk hinner
  subst hk
  exact ⟨rfl, hgood, ⟨hsucceeds, hmachine⟩, hbad, hsucceeds', e, hinner.symm, hfails⟩

/-! ## Loops with a condition -/

/-- Guards that agree from now on drive the same loop. -/
theorem Evaluates.loop_congr {line k n : Nat} {guard guard' : Guard} {body : Statement}
    {m : Machine} {o : Outcome} (h : Evaluates (.loop line guard body k) m n o)
    (hagree : ∀ m j, k ≤ j → guard'.goes m j = guard.goes m j) :
    Evaluates (.loop line guard' body k) m n o := by
  generalize ht : Task.loop line guard body k = t at h
  induction h generalizing k with
  | @loopEnds _ _ _ _ m hg =>
    cases ht
    exact .loopEnds ((hagree m _ (Nat.le_refl _)).trans hg)
  | @loopGoes _ _ _ k m _ _ _ _ hg hb _ _ ihl =>
    cases ht
    have hrest := ihl (fun m j hj => hagree m j (Nat.le_of_succ_le hj)) rfl
    exact .loopGoes ((hagree m _ (Nat.le_refl _)).trans hg) hb hrest
  | @loopFails _ _ _ _ m _ _ _ hg hb _ =>
    cases ht
    exact .loopFails ((hagree m _ (Nat.le_refl _)).trans hg) hb
  | _ => cases ht

/-- After the first body the two loops ask the same, and the first one is due in both. -/
theorem Evaluates.doWhile_of_whileTrue {line n : Nat} {c : Condition} {body : Statement}
    {m : Machine} {o : Outcome} (h : Evaluates (.loop line (.whileTrue c) body 0) m n o)
    (hc : m.holds c = true) : Evaluates (.loop line (.doWhile c) body 0) m n o := by
  cases h with
  | loopEnds hg =>
    rw [Guard.goes, hc] at hg
    cases hg
  | loopGoes _ hb hl => exact .loopGoes rfl hb (hl.loop_congr (Guard.tests_doWhile c))
  | loopFails _ hb => exact .loopFails rfl hb

section
variable (m : Machine) (line : Nat) (body : Statement) {c : Condition}

theorem Machine.execute_whileTrue_holds (hc : m.holds c = true) (text text' : String) :
    m.execute ⟨line, .block text (.whileTrue c) body⟩ =
      m.execute ⟨line, .block text' (.doWhile c) body⟩ := by
  rcases Nat.lt_or_ge m.steps m.limits.maxSteps with hs | hs
  · have hc' : m.tick.holds c = true := (Machine.holds_congr rfl rfl c).trans hc
    obtain ⟨n, o, hl⟩ := exists_evaluates (.loop line (.whileTrue c) body 0) m.tick
    have hwhile : m.execute ⟨line, .block text (.whileTrue c) body⟩ = o :=
      Evaluates.execute_eq (.looped hs rfl hl)
    have hdoWhile : m.execute ⟨line, .block text' (.doWhile c) body⟩ = o :=
      Evaluates.execute_eq (.looped hs rfl (hl.doWhile_of_whileTrue hc'))
    rw [hwhile, hdoWhile]
  · rw [execute_exhausted hs, execute_exhausted hs]

theorem Machine.execute_whileTrue_fails (hc : m.holds c = false) (text : String) :
    m.execute ⟨line, .block text (.whileTrue c) body⟩ =
      if m.limits.maxSteps ≤ m.steps then m.fail line (.budgetExhausted m.limits.maxSteps)
      else ⟨{ m with steps := m.steps + 1 }, none⟩ := by
  split
  · rename_i hs
    exact execute_exhausted hs _
  · rename_i hs
    have hc' : m.tick.holds c = false := (Machine.holds_congr rfl rfl c).trans hc
    exact Evaluates.execute_eq (.looped (Nat.lt_of_not_le hs) rfl (.loopEnds hc'))

end

/-! ## Loops over a count -/

section
variable {ea eb : List ExecError} {a b m : Machine} {i : Instruction} {k : Nat}

/-- What succeeds on a machine one step ahead succeeds on the one behind. -/
theorem Machine.Ahead.execute (h : a.Ahead [] ea eb b) (hok : (a.execute i).error? = none) :
    (b.execute i).error? = none ∧ (a.execute i).machine.Ahead [] ea eb (b.execute i).machine := by
  obtain ⟨n, hn⟩ := evaluates_execute a i
  have hf : (a.execute i).isFatal = false := by simp [Outcome.isFatal, hok]
  obtain ⟨o, ho, hmachine, herror⟩ := hn.behind hf (.inl rfl) h
  rw [ho.execute_eq]
  rw [hok] at herror
  exact ⟨Option.map_eq_none_iff.1 herror.symm, hmachine⟩

theorem Machine.Ahead.after (h : a.Ahead [] ea eb b) (hok : a.Succeeds i k) :
    b.Succeeds i k ∧ (a.after i k).Ahead [] ea eb (b.after i k) := by
  induction k with
  | zero => exact ⟨b.succeeds_zero i, h⟩
  | succ k ih =>
    obtain ⟨hbefore, hahead⟩ := ih (hok.of_le (Nat.le_succ k))
    obtain ⟨hlast, hahead'⟩ := hahead.execute (hok k (Nat.lt_succ_self k))
    refine ⟨?_, hahead'⟩
    intro j hj
    rcases Nat.lt_succ_iff_lt_or_eq.1 hj with hlt | rfl
    · exact hbefore j hlt
    · exact hlast

/-- A step alone sets a machine ahead of itself. -/
theorem Machine.ahead_tick (m : Machine) :
    m.tick.Ahead [] m.errors.toList m.errors.toList m where
  data := rfl
  limits := rfl
  functions := rfl
  frames := (List.append_nil _).symm
  steps := rfl
  errors := ⟨[], by simp [tick], by simp⟩

/-- With the same errors at the start, machines in step differ in the step only. -/
theorem Machine.Ahead.eq_tick (h : a.Ahead [] ea ea b) :
    a = { b with steps := b.steps + 1 } := by
  obtain ⟨added, ha, hb⟩ := h.errors
  have herrors : a.errors = b.errors := by
    apply Array.ext'
    rw [ha, hb]
    simp
  rw [h.eq_with, herrors]

/-- A run of copies is repeated execution. -/
theorem Machine.run_replicate (h : m.Succeeds i k) :
    m.run (List.replicate k i) = ⟨m.after i k, Array.replicate k i, false⟩ := by
  induction k with
  | zero => rfl
  | succ k ih =>
    have hlast : ((m.after i k).execute i).error? = none := h k (Nat.lt_succ_self k)
    rw [List.replicate_succ', run_concat, ih (h.of_le (Nat.le_succ k)), Run.step_live,
      Array.replicate_succ]
    simp only [Outcome.kept, Outcome.isFatal, hlast]
    rfl

end

/-- A loop over a count that returns no error has executed as many bodies. -/
theorem Machine.execute_times_ok {m : Machine} {line : Nat} {text : String} {count : Operand}
    {body : Statement} (hnone : (m.execute ⟨line, .block text (.times count) body⟩).error? = none) :
    let n := (max 0 (m.value count).toInt).toNat
    m.tick.Succeeds ⟨line, body⟩ n ∧
    (m.execute ⟨line, .block text (.times count) body⟩).machine = m.tick.after ⟨line, body⟩ n := by
  intro n
  have hloop : (Header.times count).isLoop = true := rfl
  have hend := m.execute_loop line text hloop body
  generalize m.execute ⟨line, .block text (.times count) body⟩ = o at hend hnone
  cases hend with
  | exhausted => cases hnone
  | cut => cases hnone
  | failed => cases hnone
  | @done k hk hends =>
    have hcount : (k : Int) = max 0 (m.tick.value count).toInt := hends
    have hvalue : m.tick.value count = m.value count := Machine.value_congr rfl rfl count
    obtain rfl : n = k := by
      rw [hvalue] at hcount
      omega
    exact ⟨hk, rfl⟩

/-- **The kinds of loops agree.** On a machine in which the condition holds, a while loop and a
do-while loop have the same outcome, with all that the machine has done and whatever the error; if
the condition fails, the while loop takes its step and nothing else. A loop over a count that
returns no error is a run of as many copies of its body, none of which fails, and one step more. -/
theorem loop_forms_agree (m : Machine) (line : Nat) (body : Statement) :
    (∀ (c : Condition) (text text' : String),
      let whileLoop := m.execute ⟨line, .block text (.whileTrue c) body⟩
      let doWhileLoop := m.execute ⟨line, .block text' (.doWhile c) body⟩
      (m.holds c = true → whileLoop = doWhileLoop) ∧
      (m.holds c = false → whileLoop =
        if m.limits.maxSteps ≤ m.steps then m.fail line (.budgetExhausted m.limits.maxSteps)
        else ⟨{ m with steps := m.steps + 1 }, none⟩)) ∧
    (∀ (count : Operand) (text : String),
      let loop := m.execute ⟨line, .block text (.times count) body⟩
      let n := (max 0 (m.value count).toInt).toNat
      let copies := List.replicate n (⟨line, body⟩ : Instruction)
      loop.error? = none →
        (m.run copies).halted = false ∧
        (∀ j < n, ((m.run (copies.take j)).machine.execute ⟨line, body⟩).error? = none) ∧
        loop.machine =
          { (m.run copies).machine with steps := (m.run copies).machine.steps + 1 }) := by
  refine ⟨fun c text text' => ⟨fun hc => ?_, fun hc => ?_⟩, ?_⟩
  · exact m.execute_whileTrue_holds line body hc text text'
  · exact m.execute_whileTrue_fails line body hc text
  · intro count text loop n copies hnone
    obtain ⟨hsucceeds, hmachine⟩ := Machine.execute_times_ok hnone
    obtain ⟨hcopies, hahead⟩ := m.ahead_tick.after hsucceeds
    have hrun : m.run copies = _ := Machine.run_replicate hcopies
    refine ⟨by rw [hrun], ?_, ?_⟩
    · intro j hj
      rw [List.take_replicate, Nat.min_eq_left (Nat.le_of_lt hj),
        Machine.run_replicate (hcopies.of_le (Nat.le_of_lt hj))]
      exact hcopies j hj
    · rw [hrun]
      exact hmachine.trans hahead.eq_tick

/-- Two loops that pop until they fail, a loop that does not start, and the loop over a count from
above. -/
theorem loop_forms_agree_countdown :
    let m := countdownMachine [1, 7]
    let pops : Condition := .nonzero countdownOperand
    let zero : Condition := .compare countdownOperand .eq (.literal 0)
    let counted := countdownMachine [1, 0, 0]
    let copies : List Instruction := [⟨4, countdownBody⟩, ⟨4, countdownBody⟩]
    let popping (text : String) (header : Header) : Outcome :=
      m.execute ⟨5, .block text header countdownPop⟩
    m.holds pops = true ∧
    (popping "loop while n pop n" (.whileTrue pops)).error? =
      some ⟨.inLoop 2 .stackUnderflow, 5, []⟩ ∧
    popping "loop while n pop n" (.whileTrue pops) =
      popping "loop do-while n pop n" (.doWhile pops) ∧
    m.holds zero = false ∧
    popping "loop while n == 0 pop n" (.whileTrue zero) = ⟨{ m with steps := 1 }, none⟩ ∧
    (counted.execute countdownLoop).error? = none ∧ (counted.run copies).halted = false ∧
    (counted.execute countdownLoop).machine =
      { (counted.run copies).machine with steps := (counted.run copies).machine.steps + 1 } := by
  intro m pops zero counted copies popping
  have hpops : m.holds pops = true := by decide +kernel
  have hzero : m.holds zero = false := by decide +kernel
  have hcounted : (counted.execute countdownLoop).error? = none := by decide +kernel
  have hcopies : List.replicate (max 0 (counted.value countdownOperand).toInt).toNat
      (⟨4, countdownBody⟩ : Instruction) = copies := by
    have hcount : (counted.value countdownOperand).toInt = 2 := by decide +kernel
    rw [hcount]
    rfl
  obtain ⟨hconditions, -⟩ := loop_forms_agree m 5 countdownPop
  obtain ⟨-, hcounts⟩ := loop_forms_agree counted 4 countdownBody
  obtain ⟨hlive, -, hmachine⟩ := hcounts _ _ hcounted
  rw [hcopies] at hlive hmachine
  exact ⟨hpops, by decide +kernel, (hconditions pops _ _).1 hpops, hzero,
    (hconditions zero "loop while n == 0 pop n" "").2 hzero, hcounted, hlive, hmachine⟩

end LineAsm
