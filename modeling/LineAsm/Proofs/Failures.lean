import LineAsm.Proofs.Errors
import LineAsm.Proofs.Reachable
import Mathlib.Data.List.Basic

/-!
# What a run leaves of its failures

A run keeps the errors that its own instructions return; the errors inside called functions are kept
by the calls. On a machine at rest the two are told apart by their traces: an error of the run
itself was met under no call.

Results:
* `failures m code`: the instructions that returned an error, with the errors.
* `Run.Accounts`, `Run.Accounts.step`, `run_accounts`: what the kept errors and the trace say about
  the run so far, kept by every step.
* `run_spent`: a machine without budget executes one instruction and halts.
* `run_accounts_for_failures`: all of it for every machine in use.
-/
namespace LineAsm

/-! ## The failures of a run -/

/-- The instructions of a run that returned an error, in order, each with its error. Every
instruction is executed by the machine that the run of those before it leaves. -/
def failures (m : Machine) (code : List Instruction) : List (Instruction × ExecError) :=
  code.zipIdx.filterMap fun (i, k) =>
    ((m.run (code.take k)).machine.execute i).error?.map fun e => (i, e)

theorem failures_concat (m : Machine) (code : List Instruction) (i : Instruction) :
    failures m (code ++ [i]) = failures m code ++
      (((m.run code).machine.execute i).error?.map fun e => (i, e)).toList := by
  unfold failures
  rw [List.zipIdx_append, List.filterMap_append]
  congr 1
  · apply List.filterMap_congr
    rintro ⟨j, k⟩ hk
    have hlt : k < code.length := by
      have := List.snd_lt_of_mem_zipIdx hk
      simpa using this
    simp only [List.take_append_of_le_length (Nat.le_of_lt hlt)]
  · simp only [Nat.zero_add, List.zipIdx_singleton, List.take_left, List.filterMap_cons,
      List.filterMap_nil]
    cases ((m.run code).machine.execute i).error? <;> rfl

/-- A local failure names the line of its instruction. -/
theorem failures_line {m : Machine} {code : List Instruction} {p : Instruction × ExecError}
    (hp : p ∈ failures m code) (hf : p.2.isFatal = false) : p.2.line = p.1.line := by
  unfold failures at hp
  rw [List.mem_filterMap] at hp
  obtain ⟨⟨i, k⟩, -, hp⟩ := hp
  rw [Option.map_eq_some_iff] at hp
  obtain ⟨e, he, rfl⟩ := hp
  obtain ⟨n, hn⟩ := evaluates_execute (m.run (code.take k)).machine i
  have hline := (hn.local_error e he hf).1
  simp only [Task.line?, Option.some.injEq] at hline
  exact hline.symm

/-! ## One step -/

/-- What an instruction adds to the errors of a machine at rest: those kept inside calls, and then
its own. -/
theorem execute_errors {m : Machine} (hfr : m.frames = []) (i : Instruction) :
    ∃ inner, (m.execute i).kept.errors.toList =
        m.errors.toList ++ inner ++ (m.execute i).error?.toList ∧
      (∀ e ∈ inner, e.isFatal = false) ∧ inner.filter (·.trace.isEmpty) = [] := by
  obtain ⟨n, hn⟩ := evaluates_execute m i
  obtain ⟨inner, herr, hin⟩ := hn.keeps
  simp only [Task.depth, hfr, List.length_nil, Nat.zero_add] at hin
  refine ⟨inner, ?_, fun e he => (hin e he).1, ?_⟩
  · unfold Outcome.kept
    split
    · rename_i he; rw [he]; simp [herr]
    · rename_i e he; rw [he]; simp [Machine.record, herr]
  · rw [List.filter_eq_nil_iff]
    intro e he h
    have := (hin e he).2
    rw [List.isEmpty_iff] at h
    rw [h] at this
    simp at this

/-- What the kept errors and the trace of a run of `code` say, if `m` was the machine at its
start. -/
def Run.Accounts (m : Machine) (code : List Instruction) (r : Run) : Prop :=
  ∃ added, r.machine.errors.toList = m.errors.toList ++ added ∧
    ((r.halted = false ∧ r.trace.toList = code ∧ (∀ e ∈ added, e.isFatal = false) ∧
        added.filter (·.trace.isEmpty) = (failures m code).map Prod.snd) ∨
     (r.halted = true ∧ r.trace.toList <+: code ∧ r.machine.steps = m.limits.maxSteps ∧
        ∃ earlier last, added = earlier ++ [last] ∧ (∀ e ∈ earlier, e.isFatal = false) ∧
          last.cause = .budgetExhausted m.limits.maxSteps))

theorem Run.Accounts.step {m : Machine} (hfr : m.frames = []) (hs : m.steps ≤ m.limits.maxSteps)
    {code : List Instruction} (h : (m.run code).Accounts m code) (i : Instruction) :
    ((m.run code).step i).Accounts m (code ++ [i]) := by
  obtain ⟨added, herr, h⟩ := h
  rcases h with ⟨hlive, htrace, hlocal, htop⟩ | ⟨hhalt, htrace, hsteps, hlast⟩
  · have hg := m.run_grows code
    have hle := Machine.run_steps_le hs code
    have hfail := failures_concat m code i
    generalize hr : m.run code = r at *
    obtain ⟨m₁, trace, halted⟩ := r
    simp only at hlive; subst hlive
    simp only at herr htrace hg hle hfail
    rw [Run.step_live]
    obtain ⟨inner, hkept, hin, hout⟩ := execute_errors (hg.frames.trans hfr) i
    rw [herr] at hkept
    obtain ⟨n, hn⟩ := evaluates_execute m₁ i
    have hnew : (m₁.execute i).kept.errors.toList =
        m.errors.toList ++ (added ++ inner ++ (m₁.execute i).error?.toList) := by
      rw [hkept]; simp only [List.append_assoc]
    refine ⟨_, hnew, ?_⟩
    have hpast : ∀ e ∈ added ++ inner, e.isFatal = false := by
      intro e he
      rcases List.mem_append.mp he with he | he
      · exact hlocal e he
      · exact hin e he
    cases hf : (m₁.execute i).isFatal with
    | false =>
      left
      refine ⟨rfl, by simp [htrace], ?_, ?_⟩
      · intro e he
        rcases List.mem_append.mp he with he | he
        · exact hpast e he
        · rw [Option.mem_toList] at he
          unfold Outcome.isFatal at hf
          rw [he] at hf; exact hf
      · rw [List.filter_append, List.filter_append, hout, htop, hfail, List.map_append,
          List.append_nil]
        congr 1
        cases he : (m₁.execute i).error? with
        | none => rfl
        | some e =>
          -- the instruction was executed under no call, so its error is one of the run itself
          have hfe : e.isFatal = false := by
            unfold Outcome.isFatal at hf; rw [he] at hf; exact hf
          have ht := (hn.local_error e he hfe).2
          rw [hg.frames, hfr] at ht
          simp [ht]
    | true =>
      right
      obtain ⟨e, he, hfe⟩ := Outcome.error_of_isFatal hf
      obtain ⟨hc, hmax⟩ := hn.fatal e he hfe
      have hle' := hn.steps_le hle
      rw [hg.limits] at hc hmax hle'
      refine ⟨rfl, by simp [htrace], ?_, added ++ inner, e, by rw [he]; rfl, hpast, hc⟩
      rw [Outcome.kept_steps]
      omega
  · rw [Run.step_halted hhalt]
    exact ⟨added, herr, Or.inr ⟨hhalt, htrace.trans (List.prefix_append _ _), hsteps, hlast⟩⟩

/-! ## Whole runs -/

theorem run_accounts {m : Machine} (hfr : m.frames = []) (hs : m.steps ≤ m.limits.maxSteps)
    (code : List Instruction) : (m.run code).Accounts m code := by
  suffices h : ∀ rest done, (m.run done).Accounts m done →
      (m.run (done ++ rest)).Accounts m (done ++ rest) from
    h code [] ⟨[], by simp, Or.inl ⟨rfl, rfl, by simp, rfl⟩⟩
  intro rest
  induction rest with
  | nil => intro done h; rw [List.append_nil]; exact h
  | cons i rest ih =>
    intro done h
    have hstep := h.step hfr hs i
    rw [← Machine.run_concat] at hstep
    have := ih (done ++ [i]) hstep
    rwa [List.append_assoc] at this

/-- Without budget the first instruction ends the run, and only its error is new. -/
theorem run_spent {m : Machine} (h : m.limits.maxSteps ≤ m.steps) (i : Instruction)
    (rest : List Instruction) :
    m.run (i :: rest) =
      ⟨m.record ⟨.budgetExhausted m.limits.maxSteps, i.line, m.frames⟩, #[i], true⟩ := by
  have hex : m.execute i = m.fail i.line (.budgetExhausted m.limits.maxSteps) :=
    (Evaluates.exhausted h).execute_eq
  rw [Machine.run_cons, hex]
  rfl

/-- **Account of a run.** On every machine in use the trace of a run is the executed part of the
code. A run that does not halt executes all of it, adds no fatal error, and its added errors under
no call are those of the instructions that failed, in order and on their lines. A run that halts adds
exactly one fatal error, as the last one, with every step used; from then on, whatever is done with
the machine, a run executes one instruction, adds one fatal error and changes nothing else. -/
theorem run_accounts_for_failures {limits : Limits} {m : Machine}
    (hm : Reaches (.fresh limits ∅) m) (code : List Instruction) :
    let r := m.run code
    r.trace.toList = code.take r.executed ∧
    ∃ added, r.machine.errors.toList = m.errors.toList ++ added ∧
      (r.halted = false →
        r.executed = code.length ∧ (∀ e ∈ added, e.isFatal = false) ∧
        added.filter (·.trace.isEmpty) = (failures m code).map Prod.snd ∧
        ∀ p ∈ failures m code, p.2.line = p.1.line) ∧
      (r.halted = true →
        r.machine.steps = m.limits.maxSteps ∧
        (∃ earlier last, added = earlier ++ [last] ∧ (∀ e ∈ earlier, e.isFatal = false) ∧
          last.cause = .budgetExhausted m.limits.maxSteps) ∧
        ∀ later, Reaches r.machine later → ∀ i rest,
          later.run (i :: rest) =
            ⟨later.record ⟨.budgetExhausted m.limits.maxSteps, i.line, []⟩, #[i], true⟩) := by
  intro r
  have hfr : m.frames = [] := hm.frames
  have hs : m.steps ≤ m.limits.maxSteps := hm.steps_le (Nat.zero_le _)
  obtain ⟨added, herr, h⟩ := run_accounts hfr hs code
  have htake : ∀ {l : List Instruction}, r.trace.toList <+: l →
      r.trace.toList = l.take r.executed := by
    intro l hl
    rw [List.prefix_iff_eq_take] at hl
    simpa [Run.executed] using hl
  rcases h with ⟨hlive, htrace, hlocal, htop⟩ | ⟨hhalt, htrace, hsteps, hlast⟩
  · refine ⟨htake (htrace ▸ List.prefix_refl _), added, herr,
      fun _ => ⟨?_, hlocal, htop, ?_⟩, ?_⟩
    · rw [← htrace]; simp [r, Run.executed]
    · intro p hp
      have hmem : p.2 ∈ added.filter (·.trace.isEmpty) := by
        rw [htop]; exact List.mem_map_of_mem hp
      exact failures_line hp (hlocal _ (List.mem_filter.mp hmem).1)
    · intro h
      rw [hlive] at h; cases h
  · refine ⟨htake htrace, added, herr, ?_, fun _ => ⟨hsteps, hlast, ?_⟩⟩
    · intro h
      rw [hhalt] at h; cases h
    · intro later hl i rest
      have hlim : later.limits = m.limits := hl.limits.trans (m.run_grows code).limits
      have hspent : later.limits.maxSteps ≤ later.steps := by
        have := hl.steps
        rw [hlim]
        rw [hsteps] at this; exact this
      have hrest : later.frames = [] := (hl.frames.trans (m.run_grows code).frames).trans hfr
      rw [run_spent hspent, hlim, hrest]

/-- A machine with a function that pops once. -/
def drainMachine (budget : Nat) : Machine :=
  (Machine.fresh ⟨budget, 256⟩ ∅).define "drain" [⟨2, .simple "pop r" (.pop (.register "r"))⟩]

/-- A pop from the empty stack, another one inside a call, and a loop. -/
def drainCode : List Instruction :=
  [⟨5, .simple "pop r" (.pop (.register "r"))⟩, ⟨6, .simple "call drain" (.call "drain")⟩,
   ⟨7, .block "loop for 3 print 7" (.times (.literal 3))
    (.simple "print 7" (.print [.value (.literal 7)]))⟩]

/-- With twenty steps the two pops fail and the run goes on; with four it halts in the loop. -/
theorem run_accounts_for_failures_drain :
    ((drainMachine 20).run drainCode).halted = false ∧
    (∃ added,
      ((drainMachine 20).run drainCode).machine.errors.toList =
        (drainMachine 20).errors.toList ++ added ∧
      added.map (·.line) = [5, 2] ∧
      added.filter (·.trace.isEmpty) = (failures (drainMachine 20) drainCode).map Prod.snd ∧
      ∀ p ∈ failures (drainMachine 20) drainCode, p.2.line = p.1.line) ∧
    ((drainMachine 4).run drainCode).halted = true ∧
    ((drainMachine 4).run drainCode).machine.steps = 4 ∧
    ∀ later, Reaches ((drainMachine 4).run drainCode).machine later → ∀ i rest,
      later.run (i :: rest) =
        ⟨later.record ⟨.budgetExhausted 4, i.line, []⟩, #[i], true⟩ := by
  have hreach : ∀ budget, Reaches (.fresh ⟨budget, 256⟩ ∅) (drainMachine budget) :=
    fun _ => .define .refl "drain" _
  obtain ⟨-, added, herr, hlive, -⟩ := run_accounts_for_failures (hreach 20) drainCode
  obtain ⟨-, _, -, -, hhalt⟩ := run_accounts_for_failures (hreach 4) drainCode
  obtain ⟨-, -, htop, hline⟩ := hlive (by decide)
  obtain ⟨hsteps, -, hlater⟩ := hhalt (by decide)
  have hlines : ((drainMachine 20).run drainCode).machine.errors.toList.map (·.line) = [5, 2] := by
    decide
  refine ⟨by decide, ⟨added, herr, ?_, htop, hline⟩, by decide, hsteps, hlater⟩
  rwa [herr] at hlines

end LineAsm
