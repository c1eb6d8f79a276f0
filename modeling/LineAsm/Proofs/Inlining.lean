import LineAsm.Proofs.Errors
import LineAsm.Proofs.Runs
import Mathlib.Data.List.Infix

/-!
# A call and its body

A call takes a step and then executes the body of the function inside a further call. The body could
as well stand in place of the call: the machine is then one step behind and one call less deep, and
this shows nowhere but in the traces of errors, unless the limit on calls or the budget comes into
play. Both keep the failures of their instructions and go on.

Results:
* `Machine.Ahead outer ea eb a b`: `a` is where `b` is, one step later and inside the calls `outer`.
* `Evaluates.behind`: what a task does on the machine ahead it does on the one behind, if it ends
  well within the budget and the limit on calls.
* `Evaluates.run_code`: the top level treats failures as a function body does.
* `inlining_preserves_runs`: a run with a call and the run with the body in its place.
-/
namespace LineAsm

/-! ## Machines in step -/

/-- The error with further calls around those that were active. -/
def ExecError.under (outer : List Frame) (e : ExecError) : ExecError :=
  { e with trace := e.trace ++ outer }

@[simp] theorem ExecError.under_nil (e : ExecError) : e.under [] = e := by simp [under]

/-- The first machine has taken one step more than the second and is inside the further calls
`outer`; otherwise the two are in the same state. Since they had kept `ea` and `eb`, they have kept
the same errors, up to the further calls. -/
structure Machine.Ahead (outer : List Frame) (ea eb : List ExecError) (a b : Machine) : Prop where
  data : a.holding b = a
  limits : a.limits = b.limits
  functions : a.functions = b.functions
  frames : a.frames = b.frames ++ outer
  steps : a.steps = b.steps + 1
  errors : ∃ added,
    a.errors.toList = ea ++ added.map (·.under outer) ∧ b.errors.toList = eb ++ added

/-- The machines of the two outcomes are in step, and so are their errors. -/
def Outcome.Ahead (outer : List Frame) (ea eb : List ExecError) (o o' : Outcome) : Prop :=
  o.machine.Ahead outer ea eb o'.machine ∧ o.error? = o'.error?.map (·.under outer)

variable {outer : List Frame} {ea eb : List ExecError}

namespace Machine.Ahead

variable {a b : Machine}

theorem registers (h : a.Ahead outer ea eb b) : b.registers = a.registers := by
  rw [← h.data]
  rfl

theorem memory (h : a.Ahead outer ea eb b) : b.memory = a.memory := by
  rw [← h.data]
  rfl

/-- The machine behind has budget as long as the one ahead has. -/
theorem lt_maxSteps (h : a.Ahead outer ea eb b) (hs : a.steps < a.limits.maxSteps) :
    b.steps < b.limits.maxSteps := by
  have := h.steps
  rw [← h.limits]
  omega

theorem length_le (h : a.Ahead outer ea eb b) : ea.length ≤ a.errors.toList.length := by
  obtain ⟨added, ha, -⟩ := h.errors
  rw [ha, List.length_append]
  omega

theorem tick (h : a.Ahead outer ea eb b) : a.tick.Ahead outer ea eb b.tick :=
  { h with
    data := congrArg Machine.tick h.data
    steps := congrArg Nat.succ h.steps }

theorem enter (h : a.Ahead outer ea eb b) (f : String) (line : Nat) :
    (a.enter f line).Ahead outer ea eb (b.enter f line) :=
  { h with
    data := congrArg (Machine.enter · f line) h.data
    frames := congrArg (List.cons _) h.frames }

theorem holding (h : a.Ahead outer ea eb b) (d : Machine) :
    (a.holding d).Ahead outer ea eb (b.holding d) :=
  { h with data := rfl }

theorem record (h : a.Ahead outer ea eb b) (e : ExecError) :
    (a.record (e.under outer)).Ahead outer ea eb (b.record e) := by
  obtain ⟨added, ha, hb⟩ := h.errors
  refine { h with data := congrArg (Machine.record · _) h.data, errors := ⟨added ++ [e], ?_, ?_⟩ }
  · simp [Machine.record, ha]
  · simp [Machine.record, hb]

theorem errorAt (h : a.Ahead outer ea eb b) (line : Nat) (cause : Cause) :
    a.errorAt line cause = (b.errorAt line cause).under outer := by
  simp only [Machine.errorAt, ExecError.under, h.frames]

theorem fail (h : a.Ahead outer ea eb b) (line : Nat) (cause : Cause) :
    (a.fail line cause).Ahead outer ea eb (b.fail line cause) :=
  ⟨h, congrArg some (h.errorAt line cause)⟩

end Machine.Ahead

namespace Outcome.Ahead

variable {o o' : Outcome}

theorem isFatal (h : o.Ahead outer ea eb o') : o'.isFatal = o.isFatal := by
  unfold Outcome.isFatal
  rw [h.2]
  cases o'.error? <;> rfl

theorem kept (h : o.Ahead outer ea eb o') : o.kept.Ahead outer ea eb o'.kept := by
  obtain ⟨b, error⟩ := o'
  obtain ⟨hm, he⟩ := h
  unfold Outcome.kept
  cases error with
  | none => rw [he]; exact hm
  | some e => rw [he]; exact hm.record e

/-- The two machines leave the same call. -/
theorem leave (h : o.Ahead outer ea eb o') {frame : Frame} {frames : List Frame}
    (hf : o'.machine.frames = frame :: frames) : o.leave.Ahead outer ea eb o'.leave := by
  refine ⟨{ h.1 with data := ?_, frames := ?_ }, h.2⟩
  · exact congrArg (fun m : Machine => { m with frames := m.frames.tail }) h.1.data
  · simp only [Outcome.leave, h.1.frames, hf, List.cons_append, List.tail_cons]

end Outcome.Ahead

/-! ## The limit on calls

The machine ahead is deeper in calls, so it can meet the limit where the one behind does not. What
it met there it has kept or returned, and it can be seen in the innermost cause. -/

def Cause.isCallDepth : Cause → Bool
  | .callDepthExceeded _ => true
  | _ => false

/-- No error was met at the limit on calls, among those kept after the first `k` ones and the
returned one. -/
def Outcome.BelowLimit (k : Nat) (o : Outcome) : Prop :=
  (∀ e ∈ o.machine.errors.toList.drop k, e.cause.innermost.isCallDepth = false) ∧
    ∀ e, o.error? = some e → e.cause.innermost.isCallDepth = false

namespace Outcome.BelowLimit

variable {k : Nat} {o o' : Outcome}

/-- An earlier state of the machine. -/
theorem earlier (h : o.BelowLimit k) {m : Machine}
    (hm : m.errors.toList <+: o.machine.errors.toList) : (⟨m, none⟩ : Outcome).BelowLimit k :=
  ⟨fun e he => h.1 e ((hm.drop k).subset he), by simp⟩

/-- An earlier outcome whose error was kept. -/
theorem of_kept (h : o.BelowLimit k) (hm : o'.kept.errors.toList <+: o.machine.errors.toList)
    (hk : k ≤ o'.machine.errors.toList.length) : o'.BelowLimit k := by
  have hkept : ∀ e ∈ o'.kept.errors.toList.drop k, e.cause.innermost.isCallDepth = false :=
    fun e he => h.1 e ((hm.drop k).subset he)
  obtain ⟨m, error⟩ := o'
  cases error with
  | none => exact ⟨hkept, by simp⟩
  | some e =>
    simp only [kept_some, Machine.record, Array.toList_push, List.drop_append_of_le_length hk,
      List.mem_append, List.mem_singleton] at hkept
    refine ⟨fun e' he' => hkept e' (.inl he'), ?_⟩
    intro e' he'
    cases he'
    exact hkept e (.inr rfl)

theorem of_inLoop {line iteration : Nat} {m : Machine} {e : ExecError} (hf : e.isFatal = false)
    (h : (inLoop line iteration m e).BelowLimit k) : (⟨m, some e⟩ : Outcome).BelowLimit k := by
  rw [inLoop_local hf] at h
  refine ⟨h.1, ?_⟩
  intro e' he'
  cases he'
  exact h.2 (m.errorAt line (.inLoop iteration e.cause)) rfl

end Outcome.BelowLimit

section
variable {a b : Machine} {f : String}

theorem Machine.Ahead.entry_ok (h : a.Ahead outer ea eb b) {body : List Instruction}
    (he : a.entry f = .ok body) : b.entry f = .ok body := by
  obtain ⟨hlt, hbody⟩ := entry_ok_iff.1 he
  rw [h.frames, h.limits, List.length_append] at hlt
  rw [h.functions] at hbody
  exact entry_ok_iff.2 ⟨by omega, hbody⟩

theorem Machine.Ahead.entry_error (h : a.Ahead outer ea eb b) {cause : Cause}
    (he : a.entry f = .error cause) (hd : outer = [] ∨ cause.innermost.isCallDepth = false) :
    b.entry f = .error cause := by
  rw [entry_error_iff, h.frames, h.limits, h.functions, List.length_append] at he
  apply entry_error_iff.2
  rcases he with ⟨hle, rfl⟩ | ⟨hlt, hnone, rfl⟩
  · rcases hd with rfl | hd
    · exact .inl ⟨hle, rfl⟩
    · cases hd
  · exact .inr ⟨by omega, hnone, rfl⟩

end

/-! ## Tasks -/

/-- An action that calls nothing keeps the machines in step. -/
theorem Action.exec_ahead {act : Action} (ha : act.callee? = none) {a b : Machine}
    (h : a.Ahead outer ea eb b) (call : String → Nat → Machine → Outcome) (line : Nat) :
    (act.exec call line a).Ahead outer ea eb (act.exec call line b) := by
  obtain ⟨d, cause?, hexec⟩ := Action.exec_holding ha b
  have hA : act.exec call line a = ⟨a.holding d, cause?.map (a.errorAt line)⟩ := by
    rw [← hexec call line a, h.data]
  have hB : act.exec call line b = ⟨b.holding d, cause?.map (b.errorAt line)⟩ := hexec call line b
  rw [hA, hB]
  refine ⟨h.holding d, ?_⟩
  cases cause? with
  | none => rfl
  | some cause => exact congrArg some (h.errorAt line cause)

/-- **In step.** A task that ends well within the budget does the same on the machine behind, if the
two have the same calls around them or the limit on calls was not met. -/
theorem Evaluates.behind {t : Task} {a b : Machine} {n : Nat} {o : Outcome}
    (h : Evaluates t a n o) (hf : o.isFatal = false) (hd : outer = [] ∨ o.BelowLimit ea.length)
    (hab : a.Ahead outer ea eb b) :
    ∃ o', Evaluates t b n o' ∧ o.Ahead outer ea eb o' := by
  induction h generalizing b with
  | exhausted hs => cases hf
  | @action line text act a call hs ha =>
    exact ⟨act.exec call line b.tick, .action (hab.lt_maxSteps hs) ha,
      Action.exec_ahead ha hab.tick call line⟩
  | refused hs he =>
    have he' := hab.tick.entry_error he (hd.imp id fun hd => hd.2 _ rfl)
    exact ⟨_, .refused (hab.lt_maxSteps hs) he', hab.tick.fail _ _⟩
  | @called line text f a body n o hs he _ ih =>
    obtain ⟨o', ho', hrel⟩ := ih hf hd (hab.tick.enter f line)
    exact ⟨o'.leave, .called (hab.lt_maxSteps hs) (hab.tick.entry_ok he) ho',
      hrel.leave ho'.grows.frames⟩
  | skipped hs hc =>
    have hc' := (Machine.holds_congr hab.tick.registers hab.tick.memory _).trans hc
    exact ⟨_, .skipped (hab.lt_maxSteps hs) hc', hab.tick, rfl⟩
  | taken hs hc _ ih =>
    have hc' := (Machine.holds_congr hab.tick.registers hab.tick.memory _).trans hc
    obtain ⟨o', ho', hrel⟩ := ih hf hd hab.tick
    exact ⟨o', .taken (hab.lt_maxSteps hs) hc' ho', hrel⟩
  | looped hs hg _ ih =>
    have hg' := (Header.guard?_congr hab.tick.registers hab.tick.memory _).trans hg
    obtain ⟨o', ho', hrel⟩ := ih hf hd hab.tick
    exact ⟨o', .looped (hab.lt_maxSteps hs) hg' ho', hrel⟩
  | loopEnds hg =>
    have hg' := (Guard.goes_congr hab.registers hab.memory _ _).trans hg
    exact ⟨_, .loopEnds hg', hab, rfl⟩
  | loopGoes hg _ hl ihb ihl =>
    have hg' := (Guard.goes_congr hab.registers hab.memory _ _).trans hg
    obtain ⟨⟨b', error⟩, hb', hm, he⟩ := ihb rfl (hd.imp id (·.earlier hl.grows.errors)) hab
    cases error with
    | some e => cases he
    | none =>
      obtain ⟨o', hl', hrel⟩ := ihl hf hd hm
      exact ⟨o', .loopGoes hg' hb' hl', hrel⟩
  | loopFails hg _ ih =>
    have hg' := (Guard.goes_congr hab.registers hab.memory _ _).trans hg
    rw [Outcome.isFatal_inLoop] at hf
    obtain ⟨⟨b', error⟩, hb', hm, he⟩ := ih hf (hd.imp id (·.of_inLoop hf)) hab
    cases error with
    | none => cases he
    | some e' =>
      -- both loops make their error anew, from the same cause
      cases he
      refine ⟨_, .loopFails hg' hb', ?_⟩
      rw [Outcome.inLoop_local hf, Outcome.inLoop_local (e := e') hf]
      exact hm.fail _ _
  | codeEnds => exact ⟨_, .codeEnds, hab, rfl⟩
  | codeGoes hi hfi hr ihi ihr =>
    have hk := Nat.le_trans hab.length_le hi.grows.errors.length_le
    obtain ⟨o', hi', hrel⟩ := ihi hfi (hd.imp id (·.of_kept hr.grows.errors hk)) hab
    obtain ⟨o₁, hr', hrel'⟩ := ihr hf hd hrel.kept
    exact ⟨o₁, .codeGoes hi' (hrel.isFatal.trans hfi) hr', hrel'⟩
  | codeStops _ hfi => rw [hfi] at hf; cases hf

/-! ## Runs -/

/-- The top level keeps failures and goes on as a function body does. It also keeps the fatal one,
which the body returns. -/
theorem Evaluates.run_code {code : List Instruction} {m : Machine} {n : Nat} {o : Outcome}
    (h : Evaluates (.code code) m n o) :
    (m.run code).machine = o.kept ∧ (m.run code).halted = o.isFatal := by
  induction code generalizing m n o with
  | nil => cases h; exact ⟨rfl, rfl⟩
  | cons i rest ih =>
    rw [Machine.run_cons]
    cases h with
    | codeGoes hi hf hr =>
      rw [hi.execute_eq, if_neg (by simp [hf])]
      exact ih hr
    | codeStops hi hf =>
      rw [hi.execute_eq, if_pos hf]
      exact ⟨rfl, hf.symm⟩

/-- The same code on machines that are in step, when the first run does not halt. -/
theorem Machine.Ahead.run {a b : Machine} (h : a.Ahead outer ea eb b) {code : List Instruction}
    (hlive : (a.run code).halted = false)
    (hd : outer = [] ∨ ∀ e ∈ (a.run code).machine.errors.toList.drop ea.length,
      e.cause.innermost.isCallDepth = false) :
    (b.run code).halted = false ∧ (a.run code).machine.Ahead outer ea eb (b.run code).machine := by
  obtain ⟨n, o, ho⟩ := exists_evaluates (.code code) a
  obtain ⟨hmachine, hhalted⟩ := ho.run_code
  have hf : o.isFatal = false := hhalted.symm.trans hlive
  have hk := Nat.le_trans h.length_le ho.grows.errors.length_le
  rw [hmachine] at hd
  have hd' : outer = [] ∨ o.BelowLimit ea.length :=
    hd.imp id fun hd => .of_kept (o := ⟨o.kept, none⟩) ⟨hd, by simp⟩ (List.prefix_refl _) hk
  obtain ⟨o', ho', hrel⟩ := ho.behind hf hd' h
  obtain ⟨hmachine', hhalted'⟩ := ho'.run_code
  rw [hhalted', hmachine', hmachine]
  exact ⟨hrel.isFatal.trans hf, hrel.kept⟩

section
variable {m : Machine} {f : String} {body : List Instruction} {call : Instruction} {text : String}
  (hcall : call.statement = .simple text (.call f)) (hbody : m.functions[f]? = some body)
include hcall hbody

/-- A call that does not exhaust the budget runs the body inside the call. -/
theorem Machine.execute_call (hroom : m.frames.length < m.limits.callDepth)
    (hlive : (m.execute call).isFatal = false) :
    let r := (m.tick.enter f call.line).run body
    r.halted = false ∧ m.execute call = (⟨r.machine, none⟩ : Outcome).leave := by
  intro r
  have hentry : m.tick.entry f = .ok body := entry_ok_iff.2 ⟨hroom, hbody⟩
  obtain ⟨n, hn⟩ := evaluates_execute m call
  rw [hcall] at hn
  generalize m.execute call = o at hn hlive
  cases hn with
  | exhausted hs => cases hlive
  | action hs ha => cases ha
  | refused hs he => rw [hentry] at he; cases he
  | @called _ _ _ _ _ n o hs he hb =>
    rw [hentry] at he
    cases he
    obtain ⟨hmachine, hhalted⟩ := hb.run_code
    obtain ⟨m', error⟩ := o
    cases error with
    | none => exact ⟨hhalted, by rw [hmachine]; rfl⟩
    | some e => cases (hb.local_error e rfl hlive).1

/-- A call on a machine at rest, and the body in its place. Outside the call the two machines are in
step again, whatever errors they have kept. -/
theorem Machine.ahead_after_call (hrest : m.frames = []) (hdepth : 0 < m.limits.callDepth)
    (hlive : (m.execute call).isFatal = false)
    (hcalls : ∀ e ∈ (m.execute call).kept.errors.toList.drop m.errors.size,
      e.cause.innermost.isCallDepth = false) :
    let called := (m.execute call).kept
    let inlined := (m.run body).machine
    (m.run body).halted = false ∧
    called.Ahead [] called.errors.toList inlined.errors.toList inlined ∧
    ∃ during, called.errors.toList = m.errors.toList ++ during.map (·.under [⟨f, call.line⟩]) ∧
      inlined.errors.toList = m.errors.toList ++ during := by
  intro called inlined
  have hroom : m.frames.length < m.limits.callDepth := by simpa [hrest] using hdepth
  obtain ⟨hinside, hexecute⟩ := execute_call hcall hbody hroom hlive
  have hcalled := congrArg Outcome.kept hexecute
  rw [hexecute] at hcalls
  have hstart : (m.tick.enter f call.line).Ahead [⟨f, call.line⟩] m.errors.toList
      m.errors.toList m :=
    { data := rfl, limits := rfl, functions := rfl, steps := rfl
      frames := by simp [enter, tick, hrest]
      errors := ⟨[], by simp [enter, tick], by simp⟩ }
  obtain ⟨houtside, hahead⟩ := hstart.run hinside (.inr hcalls)
  have hframes : inlined.frames = [] := (m.run_grows body).frames.trans hrest
  refine ⟨houtside, ?_, ?_⟩
  · show (m.execute call).kept.Ahead _ (m.execute call).kept.errors.toList _ _
    rw [hcalled]
    refine { hahead with data := ?_, frames := ?_, errors := ⟨[], by simp, by simp⟩ }
    · exact congrArg (fun m : Machine => { m with frames := m.frames.tail }) hahead.data
    · simp [Outcome.leave, hahead.frames, hframes, inlined]
  · show ∃ during, (m.execute call).kept.errors.toList = _ ∧ _
    rw [hcalled]
    exact hahead.errors

end

/-- Machines in step under the same calls differ in steps and errors only. -/
theorem Machine.Ahead.eq_with {a b : Machine} (h : a.Ahead [] ea eb b) :
    a = { b with steps := b.steps + 1, errors := a.errors } := by
  obtain ⟨hdata, hlimits, hfunctions, hframes, hsteps, -⟩ := h
  rw [List.append_nil] at hframes
  conv_lhs => rw [← hdata, Machine.holding, hlimits, hfunctions, hframes, hsteps]

/-- **Inlining.** A machine at rest runs some code with a call of a defined function in it, and the
same code with the body of the function in place of the call. If the first run does not halt, and
no error kept during the call was met at the limit on calls, then the second run does not halt
either. It takes one step less and ends in the same state, up to the errors kept during the call:
they are the same ones, with the call itself as the outermost one of their traces. -/
theorem inlining_preserves_runs {m : Machine} (hrest : m.frames = []) {f : String}
    {body : List Instruction} (hbody : m.functions[f]? = some body)
    (hdepth : 1 ≤ m.limits.maxCallDepth) {call : Instruction} {text : String}
    (hcall : call.statement = .simple text (.call f)) (pre post : List Instruction)
    (hlive : (m.run (pre ++ [call] ++ post)).halted = false)
    (hcalls : ∀ e ∈ (m.run (pre ++ [call])).machine.errors.toList.drop
      (m.run pre).machine.errors.size, e.cause.innermost.isCallDepth = false) :
    let called := m.run (pre ++ [call] ++ post)
    let inlined := m.run (pre ++ body ++ post)
    inlined.halted = false ∧
    called.machine =
      { inlined.machine with
        steps := inlined.machine.steps + 1, errors := called.machine.errors } ∧
    ∃ before during after,
      before = (m.run pre).machine.errors.toList ∧
      (m.run (pre ++ [call])).machine.errors.toList =
        before ++ during.map (·.under [⟨f, call.line⟩]) ∧
      called.machine.errors.toList = before ++ during.map (·.under [⟨f, call.line⟩]) ++ after ∧
      inlined.machine.errors.toList = before ++ during ++ after := by
  intro called inlined
  obtain ⟨hcallLive, hpostLive⟩ := Machine.run_append_live.1 hlive
  obtain ⟨hpreLive, hcallLive'⟩ := Machine.run_append_live.1 hcallLive
  have hgrows := m.run_grows pre
  have hlimit : 0 < (m.run pre).machine.limits.callDepth := by
    rw [hgrows.limits]
    simp only [Limits.callDepth, greatestCallDepth]
    omega
  -- the machines before the call and after it
  have hafter := Machine.run_append_machine hpreLive [call]
  rw [Machine.run_singleton] at hafter hcallLive'
  rw [hafter] at hcalls hpostLive ⊢
  obtain ⟨hbodyLive, hahead, during, hduring, hduring'⟩ :=
    Machine.ahead_after_call hcall (hgrows.functions ▸ hbody) (hgrows.frames.trans hrest) hlimit
      hcallLive' hcalls
  obtain ⟨hendLive, hend⟩ := hahead.run hpostLive (.inl rfl)
  have hcalled : called.machine = _ := Machine.run_append_machine hcallLive post
  have hinlineLive := Machine.run_append_live.2 ⟨hpreLive, hbodyLive⟩
  have hinlined : inlined.machine = _ := Machine.run_append_machine hinlineLive post
  rw [Machine.run_append_machine hpreLive] at hinlined
  rw [hafter] at hcalled
  refine ⟨?_, ?_, ?_⟩
  · refine Machine.run_append_live.2 ⟨hinlineLive, ?_⟩
    rw [Machine.run_append_machine hpreLive]
    exact hendLive
  · rw [hcalled, hinlined]
    exact hend.eq_with
  · obtain ⟨after, herrors, herrors'⟩ := hend.errors
    refine ⟨_, during, after, rfl, hduring, ?_, ?_⟩
    · rw [hcalled, herrors, hduring]
      simp
    · rw [hinlined, herrors', hduring']

/-- A pop, and a loop around calls of a function that fails in the middle. -/
def tallyBody : List Instruction :=
  [⟨2, .simple "pop s" (.pop (.register "s"))⟩,
   ⟨3, .block "loop for 2 call bump" (.times (.literal 2)) (.simple "call bump" (.call "bump"))⟩]

def tallyMachine : Machine :=
  ((Machine.fresh ⟨20, 2⟩ ∅).define "tally" tallyBody).define "bump"
    [⟨6, .simple "add r, 1" (.arith .add "r" (.literal 1))⟩,
     ⟨7, .simple "div r, 0" (.arith .div "r" (.literal 0))⟩,
     ⟨8, .simple "print r" (.print [.value (.place (.register "r"))])⟩]

def tallyCall : Instruction := ⟨11, .simple "call tally" (.call "tally")⟩

def tallyStart : List Instruction := [⟨10, .simple "mov r, 5" (.mov (.register "r") (.literal 5))⟩]

/-- A run of the machine with the given code between a move and a pop. -/
def tallyRun (code : List Instruction) : Run :=
  tallyMachine.run (tallyStart ++ code ++ [⟨12, .simple "pop r" (.pop (.register "r"))⟩])

/-- The call meets three errors at two depths, and the code after it a fourth one. -/
theorem inlining_preserves_runs_tally :
    tallyMachine.functions["tally"]? = some tallyBody ∧ (tallyRun [tallyCall]).halted = false ∧
    (tallyRun [tallyCall]).machine.errors.toList.map (fun e => (e.line, e.trace)) =
      [(2, [⟨"tally", 11⟩]), (7, [⟨"bump", 3⟩, ⟨"tally", 11⟩]), (7, [⟨"bump", 3⟩, ⟨"tally", 11⟩]),
       (12, [])] ∧
    (tallyRun tallyBody).halted = false ∧
    (tallyRun [tallyCall]).machine =
      { (tallyRun tallyBody).machine with
        steps := (tallyRun tallyBody).machine.steps + 1
        errors := (tallyRun [tallyCall]).machine.errors } ∧
    ∃ before during after,
      (tallyRun [tallyCall]).machine.errors.toList =
        before ++ during.map (·.under [⟨"tally", 11⟩]) ++ after ∧
      (tallyRun tallyBody).machine.errors.toList = before ++ during ++ after := by
  have hbody : tallyMachine.functions["tally"]? = some tallyBody := by decide
  have hcall : tallyCall.statement = .simple "call tally" (.call "tally") := rfl
  have hlive : (tallyRun [tallyCall]).halted = false := by decide
  obtain ⟨hinlined, hsame, before, during, after, -, -, herrors⟩ :=
    inlining_preserves_runs rfl hbody (by decide) hcall tallyStart _ hlive (by decide)
  exact ⟨hbody, hlive, by decide, hinlined, hsame, before, during, after, herrors⟩

end LineAsm
