import LineAsm.Machine.Exec

/-!
# What one action does

The pieces of an execution below loops and calls, each with what it leaves alone: taking a step,
entering and leaving a call, keeping an error, and every action that calls nothing.

Results:
* `Machine.Grows`: the order in which every execution goes forward. Limits, functions and active
  calls stay, the step counter does not go back, and output, journal and errors only get longer.
* `Action.exec_effect`: an action that calls nothing takes no step and keeps no error; if it fails,
  the machine is as before, and the error is local and names the line and the active calls.
* `Machine.Respected`: the relations between states that all these pieces respect; `Machine.Grows`
  is one.
* `Machine.value_congr`, `Machine.holds_congr`: values and conditions depend on registers and memory
  alone.
* `Action.exec_holding`: what such an action does depends on the data of the machine alone, not on
  its limits, functions, calls, steps and errors.
-/
namespace LineAsm

/-! ## Steps, calls and outcomes -/

namespace Machine

/-- The machine after it took a step of its budget. -/
def tick (m : Machine) : Machine := { m with steps := m.steps + 1 }

/-- The machine inside a call. -/
def enter (m : Machine) (function : String) (line : Nat) : Machine :=
  { m with frames := ⟨function, line⟩ :: m.frames }

/-- What a call finds: the body of the function, or why there is nothing to execute. -/
def entry (m : Machine) (function : String) : Except Cause (List Instruction) :=
  if m.limits.callDepth ≤ m.frames.length then .error (.callDepthExceeded m.limits.callDepth)
  else
    match m.functions.get? function with
    | none => .error (.undefinedFunction function)
    | some body => .ok body

end Machine

namespace Outcome

/-- Whether the budget was exhausted. -/
def isFatal (o : Outcome) : Bool := o.error?.any (·.isFatal)

/-- The machine, with the error among the kept ones if there is one. -/
def kept (o : Outcome) : Machine :=
  match o.error? with
  | none => o.machine
  | some e => o.machine.record e

/-- The outcome outside the innermost call. -/
def leave (o : Outcome) : Outcome :=
  ⟨{ o.machine with frames := o.machine.frames.tail }, o.error?⟩

@[simp] theorem isFatal_none (m : Machine) : (⟨m, none⟩ : Outcome).isFatal = false := rfl

@[simp] theorem isFatal_some (m : Machine) (e : ExecError) :
    (⟨m, some e⟩ : Outcome).isFatal = e.isFatal := rfl

@[simp] theorem isFatal_leave (o : Outcome) : o.leave.isFatal = o.isFatal := rfl

@[simp] theorem kept_none (m : Machine) : (⟨m, none⟩ : Outcome).kept = m := rfl

@[simp] theorem kept_some (m : Machine) (e : ExecError) :
    (⟨m, some e⟩ : Outcome).kept = m.record e := rfl

@[simp] theorem kept_limits (o : Outcome) : o.kept.limits = o.machine.limits := by
  unfold kept; split <;> rfl

@[simp] theorem kept_frames (o : Outcome) : o.kept.frames = o.machine.frames := by
  unfold kept; split <;> rfl

@[simp] theorem kept_steps (o : Outcome) : o.kept.steps = o.machine.steps := by
  unfold kept; split <;> rfl

/-- A fatal outcome has an error. -/
theorem error_of_isFatal {o : Outcome} (h : o.isFatal = true) :
    ∃ e, o.error? = some e ∧ e.isFatal = true := by
  unfold isFatal at h
  rwa [Option.any_eq_true] at h

/-- Around a loop an error stays what it is, local or fatal, and the machine is not touched. -/
@[simp] theorem isFatal_inLoop (line k : Nat) (m : Machine) (e : ExecError) :
    (inLoop line k m e).isFatal = e.isFatal := by
  unfold inLoop
  split
  · rfl
  · rename_i h; simp only [Bool.not_eq_true] at h; rw [h]; rfl

@[simp] theorem machine_inLoop (line k : Nat) (m : Machine) (e : ExecError) :
    (inLoop line k m e).machine = m := by
  unfold inLoop; split <;> rfl

end Outcome

/-- The function that an action calls. -/
def Action.callee? : Action → Option String
  | .call function => some function
  | _ => none

namespace Machine

variable {m : Machine} {f : String}

theorem entry_ok_iff {body : List Instruction} :
    m.entry f = .ok body ↔
      m.frames.length < m.limits.callDepth ∧ m.functions[f]? = some body := by
  unfold entry
  rw [← Std.ExtTreeMap.get?_eq_getElem?]
  by_cases hd : m.limits.callDepth ≤ m.frames.length
  · simp [hd, Nat.not_lt.2 hd]
  · cases m.functions.get? f <;> simp [hd, Nat.lt_of_not_le hd]

theorem entry_error_iff {cause : Cause} :
    m.entry f = .error cause ↔
      (m.limits.callDepth ≤ m.frames.length ∧ cause = .callDepthExceeded m.limits.callDepth) ∨
      (m.frames.length < m.limits.callDepth ∧ m.functions[f]? = none ∧
        cause = .undefinedFunction f) := by
  unfold entry
  rw [← Std.ExtTreeMap.get?_eq_getElem?]
  by_cases hd : m.limits.callDepth ≤ m.frames.length
  · simp [hd, Nat.not_lt.2 hd, eq_comm]
  · cases m.functions.get? f <;> simp [hd, Nat.lt_of_not_le hd, eq_comm]

theorem entry_error {cause : Cause} (h : m.entry f = .error cause) (line : Nat) :
    (m.errorAt line cause).isFatal = false := by
  rcases entry_error_iff.1 h with ⟨-, rfl⟩ | ⟨-, -, rfl⟩ <;> rfl

end Machine

/-! ## Going forward -/

/-- What holds between a machine and any later state of it. -/
structure Machine.Grows (m m' : Machine) : Prop where
  limits : m'.limits = m.limits
  functions : m'.functions = m.functions
  frames : m'.frames = m.frames
  steps : m.steps ≤ m'.steps
  output : m.output.toList <+: m'.output.toList
  journal : m.journal.toList <+: m'.journal.toList
  errors : m.errors.toList <+: m'.errors.toList

namespace Machine.Grows

theorem refl (m : Machine) : m.Grows m :=
  ⟨rfl, rfl, rfl, Nat.le_refl _, List.prefix_refl _, List.prefix_refl _, List.prefix_refl _⟩

theorem trans {a b c : Machine} (h : a.Grows b) (h' : b.Grows c) : a.Grows c where
  limits := h'.limits.trans h.limits
  functions := h'.functions.trans h.functions
  frames := h'.frames.trans h.frames
  steps := Nat.le_trans h.steps h'.steps
  output := h.output.trans h'.output
  journal := h.journal.trans h'.journal
  errors := h.errors.trans h'.errors

theorem tick (m : Machine) : m.Grows m.tick :=
  { refl m with steps := Nat.le_succ _ }

theorem record (m : Machine) (e : ExecError) : m.Grows (m.record e) :=
  { refl m with errors := ⟨[e], by simp [Machine.record]⟩ }

theorem kept (o : Outcome) : o.machine.Grows o.kept := by
  unfold Outcome.kept
  split
  · exact refl _
  · exact record _ _

/-- A call that went forward inside has gone forward outside. -/
theorem leave {m : Machine} {f : String} {line : Nat} {o : Outcome}
    (h : (m.enter f line).Grows o.machine) : m.Grows o.leave.machine :=
  { h with frames := by simp [Outcome.leave, h.frames, enter] }

end Machine.Grows

/-! ## Actions -/

/-- Writing a place changes registers and memory only. -/
theorem Machine.store_eq (m : Machine) (dest : Place) (value : Word) :
    ∃ registers memory, m.store dest value = { m with registers, memory } := by
  cases dest <;> exact ⟨_, _, rfl⟩

/-- What an action that calls nothing can do. -/
structure Action.Effect (line : Nat) (m : Machine) (o : Outcome) : Prop where
  grows : m.Grows o.machine
  steps : o.machine.steps = m.steps
  errors : o.machine.errors = m.errors
  failed : ∀ e, o.error? = some e →
    o.machine = m ∧ e.isFatal = false ∧ e.line = line ∧ e.trace = m.frames

namespace Action

theorem Effect.fail {line : Nat} {m : Machine} {cause : Cause}
    (hc : (m.errorAt line cause).isFatal = false) : Effect line m (m.fail line cause) := by
  refine ⟨.refl m, rfl, rfl, ?_⟩
  intro e he
  cases he
  exact ⟨rfl, hc, rfl, rfl⟩

theorem Effect.isFatal {line : Nat} {m : Machine} {o : Outcome} (h : Effect line m o) :
    o.isFatal = false := by
  cases ho : o.error? with
  | none => unfold Outcome.isFatal; rw [ho]; rfl
  | some e => unfold Outcome.isFatal; rw [ho]; exact (h.failed e ho).2.1

theorem exec_effect {a : Action} (ha : a.callee? = none)
    (call : String → Nat → Machine → Outcome) (line : Nat) (m : Machine) :
    Effect line m (a.exec call line m) := by
  cases a with
  | mov dest src =>
    obtain ⟨registers, memory, h⟩ := m.store_eq dest (m.value src)
    simp only [exec, h]
    exact ⟨{ Machine.Grows.refl m with journal := by simp }, rfl, rfl, by simp⟩
  | arith op dest src =>
    simp only [exec]
    split
    · exact ⟨{ Machine.Grows.refl m with }, rfl, rfl, by simp⟩
    · split <;> exact .fail rfl
  | push src => exact ⟨{ Machine.Grows.refl m with }, rfl, rfl, by simp [exec]⟩
  | pop dest =>
    simp only [exec]
    split
    · exact .fail rfl
    · rename_i value rest _
      obtain ⟨registers, memory, h⟩ := ({ m with stack := rest }).store_eq dest value
      rw [h]
      exact ⟨{ Machine.Grows.refl m with }, rfl, rfl, by simp⟩
  | call f => cases ha
  | print items =>
    exact ⟨{ Machine.Grows.refl m with output := by simp [exec] }, rfl, rfl, by simp [exec]⟩
  | idle c => exact ⟨.refl m, rfl, rfl, by simp [exec]⟩
  | fault f => exact .fail rfl

/-- An action that calls nothing does not ask who executes calls. -/
theorem exec_call_irrel {a : Action} (ha : a.callee? = none)
    (call call' : String → Nat → Machine → Outcome) (line : Nat) (m : Machine) :
    a.exec call line m = a.exec call' line m := by
  cases a with
  | call f => cases ha
  | _ => rfl

end Action

/-! ## Pieces of an execution -/

/-- A relation between the states of a machine that every piece of an execution respects: steps,
actions that call nothing, calls that are entered and left, and errors that are kept. -/
structure Machine.Respected (R : Machine → Machine → Prop) : Prop where
  refl : ∀ m, R m m
  trans : ∀ {a b c}, R a b → R b c → R a c
  tick : ∀ m, R m m.tick
  action : ∀ {a : Action}, a.callee? = none → ∀ call line m, R m (a.exec call line m).machine
  leave : ∀ {m f line} {o : Outcome}, R (m.enter f line) o.machine → R m o.leave.machine
  kept : ∀ o : Outcome, R o.machine o.kept

theorem Machine.Grows.respected : Machine.Respected Machine.Grows :=
  ⟨refl, trans, tick, fun ha call line m => (Action.exec_effect ha call line m).grows, leave, kept⟩

/-! ## Values -/

namespace Machine

variable {m m' : Machine}

theorem slot_congr (hr : m'.registers = m.registers) (a : Address) : m'.slot a = m.slot a := by
  unfold slot; split
  · rfl
  · rw [hr]
  · rfl

theorem value_congr (hr : m'.registers = m.registers) (hm : m'.memory = m.memory) (x : Operand) :
    m'.value x = m.value x := by
  cases x with
  | literal value => rfl
  | place place =>
    cases place with
    | register name => simp only [value, fetch, hr]
    | cell cell => simp only [value, fetch, hm, slot_congr hr]

theorem holds_congr (hr : m'.registers = m.registers) (hm : m'.memory = m.memory)
    (c : Condition) : m'.holds c = m.holds c := by
  cases c with
  | nonzero x => simp only [holds, value_congr hr hm]
  | compare lhs op rhs => simp only [holds, value_congr hr hm]

/-! ## Data

What actions read and write, as opposed to limits, functions, calls, steps and errors. -/

/-- The machine with the data of another one. -/
def holding (m d : Machine) : Machine :=
  { m with
    registers := d.registers, memory := d.memory, stack := d.stack
    output := d.output, journal := d.journal }

section
variable (m d : Machine)

@[simp] theorem value_holding (x : Operand) : (m.holding d).value x = d.value x :=
  value_congr rfl rfl x

@[simp] theorem itemText_holding : (m.holding d).itemText = d.itemText := by
  funext item
  cases item with
  | text text => rfl
  | value x => exact congrArg Word.render (value_holding m d x)

@[simp] theorem store_holding (dest : Place) (value : Word) :
    (m.holding d).store dest value = m.holding (d.store dest value) := by
  cases dest with
  | register name => rfl
  | cell cell =>
    have hslot : (m.holding d).slot cell.address = d.slot cell.address := slot_congr rfl _
    simp only [store, hslot]
    rfl

end

end Machine

/-- What an action that calls nothing makes of the data, and why it fails, is decided by the data
alone. -/
theorem Action.exec_holding {a : Action} (ha : a.callee? = none) (d : Machine) :
    ∃ (d' : Machine) (cause? : Option Cause),
      ∀ (call : String → Nat → Machine → Outcome) (line : Nat) (m : Machine),
        a.exec call line (m.holding d) = ⟨m.holding d', cause?.map (m.errorAt line)⟩ := by
  cases a with
  | mov dest src =>
    refine ⟨{ d.store dest (d.value src) with journal := d.journal.push ⟨dest, d.value src⟩ }, none,
      fun call line m => ?_⟩
    obtain ⟨registers, memory, hstore⟩ := d.store_eq dest (d.value src)
    simp only [exec, Machine.value_holding, Machine.store_holding, hstore]
    rfl
  | arith op dest src =>
    cases happly : op.apply (d.registers.read dest) (d.value src) with
    | some value =>
      refine ⟨{ d with registers := d.registers.write dest value }, none, fun call line m => ?_⟩
      have happly' : op.apply ((m.holding d).registers.read dest) (d.value src) = some value :=
        happly
      simp only [exec, Machine.value_holding, happly']
      rfl
    | none =>
      refine ⟨d, some (if op = .div ∧ d.value src = 0 then .divisionByZero else .overflow op),
        fun call line m => ?_⟩
      have happly' : op.apply ((m.holding d).registers.read dest) (d.value src) = none := happly
      simp only [exec, Machine.value_holding, happly']
      split <;> rfl
  | push src =>
    refine ⟨{ d with stack := d.value src :: d.stack }, none, fun call line m => ?_⟩
    simp only [exec, Machine.value_holding]
    rfl
  | pop dest =>
    cases hstack : d.stack with
    | nil =>
      refine ⟨d, some .stackUnderflow, fun call line m => ?_⟩
      have hstack' : (m.holding d).stack = [] := hstack
      simp only [exec, hstack']
      rfl
    | cons value rest =>
      refine ⟨{ d with stack := rest }.store dest value, none, fun call line m => ?_⟩
      have hstack' : (m.holding d).stack = value :: rest := hstack
      simp only [exec, hstack', ← Machine.store_holding]
      rfl
  | call f => cases ha
  | print items =>
    refine ⟨{ d with output := d.output.push (" ".intercalate (items.map d.itemText)) }, none,
      fun call line m => ?_⟩
    simp only [exec, Machine.itemText_holding]
    rfl
  | idle c => exact ⟨d, none, fun _ _ _ => rfl⟩
  | fault f => exact ⟨d, some (.fault f), fun _ _ _ => rfl⟩

end LineAsm
