import LineAsm.Proofs.Origins

/-!
# What an instruction can write

The function table says in advance what an instruction can do at most: the actions written in it, in
the functions that these call, in the functions that those call, and so on. Functions may call each
other in circles, so this is the least set of actions closed under calls and no recursion.

Results:
* `Occurs functions start a`: the actions that are written in `start` or behind a call of it.
* `Cell.Reaches cell l`: the locations that a destination can mean.
* `Machine.Spares S m m'`: between the two states nothing changed that no action of `S` writes.
* `Evaluates.relatesWithin`, `Machine.run_relates`: what all pieces of a task or of a run respect
  whose actions belong to a set, for every set that is closed under calls.
* `Evaluates.spares`: the tasks respect `Machine.Spares`.
* `writes_stay_in_footprint`: what follows for one instruction.
-/
namespace LineAsm

/-! ## Actions that can be executed -/

/-- The actions that are written in `start`, or in a function that can be called from there. -/
inductive Occurs (functions : Functions) (start : List Action) : Action → Prop
  | here {a : Action} (mem : a ∈ start) : Occurs functions start a
  | called {f : String} {body : List Instruction} {i : Instruction} {a : Action}
      (call : Occurs functions start (.call f)) (body_f : functions[f]? = some body)
      (mem : i ∈ body) (action : a ∈ i.statement.actions) : Occurs functions start a

/-- A set of actions that holds, with a call, all that is written in the called function. -/
def ClosedUnderCalls (functions : Functions) (S : Action → Prop) : Prop :=
  ∀ f body, S (.call f) → functions[f]? = some body →
    ∀ i ∈ body, ∀ a ∈ i.statement.actions, S a

theorem Occurs.closed (functions : Functions) (start : List Action) :
    ClosedUnderCalls functions (Occurs functions start) :=
  fun _ _ call body_f _ mem _ action => .called call body_f mem action

/-- The occurring actions are the least set of this kind. -/
theorem Occurs.least {functions : Functions} {start : List Action} {S : Action → Prop}
    (closed : ClosedUnderCalls functions S) (hstart : ∀ a ∈ start, S a) {a : Action}
    (h : Occurs functions start a) : S a := by
  induction h with
  | here mem => exact hstart _ mem
  | called _ body_f mem action ih => exact closed _ _ ih body_f _ mem _ action

/-- What is executed in a program at most. -/
theorem Program.instructions_closed (p : Program) :
    ClosedUnderCalls p.functions fun a => ∃ i ∈ p.instructions, a ∈ i.statement.actions := by
  intro f body _ hbody i hi a ha
  refine ⟨i, ?_, ha⟩
  unfold instructions
  rw [List.mem_append, List.mem_flatMap]
  exact .inr ⟨_, Std.ExtTreeMap.mem_toList_iff_getElem?_eq_some.2 hbody, hi⟩

namespace Action

/-- The place that an action writes. -/
def dest? : Action → Option Place
  | .mov dest _ | .pop dest => some dest
  | .arith _ dest _ => some (.register dest)
  | _ => none

def usesStack : Action → Bool
  | .push _ | .pop _ => true
  | _ => false

def isPrint : Action → Bool
  | .print _ => true
  | _ => false

def isMov : Action → Bool
  | .mov .. => true
  | _ => false

end Action

/-! ## States that differ where some actions write -/

/-- The locations that a cell can mean. An index that is taken from a register can be any. -/
def Cell.Reaches (cell : Cell) (l : Location) : Prop :=
  ∃ m : Machine, (⟨cell.container, m.slot cell.address⟩ : Location) = l

/-- Between the two states nothing changed that no action of the set writes. A register or a cell
that did not change is not newly written either. -/
structure Machine.Spares (S : Action → Prop) (m m' : Machine) : Prop where
  registers : ∀ r, (∀ a, S a → a.dest? ≠ some (.register r)) → m'.registers[r]? = m.registers[r]?
  cells : ∀ l : Location,
    (∀ a cell, S a → a.dest? = some (.cell cell) → ¬ cell.Reaches l) → m'.memory[l]? = m.memory[l]?
  stack : (∀ a, S a → a.usesStack = false) → m'.stack = m.stack
  output : (∀ a, S a → a.isPrint = false) → m'.output = m.output
  journal : (∀ a, S a → a.isMov = false) → m'.journal = m.journal

namespace Machine.Spares

variable {S : Action → Prop} {m m' m'' : Machine}

theorem refl (S : Action → Prop) (m : Machine) : m.Spares S m :=
  ⟨fun _ _ => rfl, fun _ _ => rfl, fun _ => rfl, fun _ => rfl, fun _ => rfl⟩

theorem trans (h : m.Spares S m') (h' : m'.Spares S m'') : m.Spares S m'' where
  registers r hr := (h'.registers r hr).trans (h.registers r hr)
  cells l hl := (h'.cells l hl).trans (h.cells l hl)
  stack hs := (h'.stack hs).trans (h.stack hs)
  output hs := (h'.output hs).trans (h.output hs)
  journal hs := (h'.journal hs).trans (h.journal hs)

/-- In a container that no action of the set writes, all cells stay as they are. -/
theorem memory (h : m.Spares S m') (l : Location)
    (hl : ∀ a cell, S a → a.dest? = some (.cell cell) → cell.container ≠ l.container) :
    m'.memory[l]? = m.memory[l]? :=
  h.cells l fun a cell ha hd ⟨_, heq⟩ => hl a cell ha hd (congrArg Location.container heq)

theorem tick (S : Action → Prop) (m : Machine) : m.Spares S m.tick := { refl S m with }

theorem enter (S : Action → Prop) (m : Machine) (f : String) (line : Nat) :
    m.Spares S (m.enter f line) := { refl S m with }

theorem leave (S : Action → Prop) (o : Outcome) : o.machine.Spares S o.leave.machine :=
  { refl S o.machine with }

theorem kept (S : Action → Prop) (o : Outcome) : o.machine.Spares S o.kept := by
  obtain ⟨m, error⟩ := o
  cases error with
  | none => exact refl S m
  | some e => exact { refl S m with }

/-- Writing the place that an action of the set writes. -/
theorem store {a : Action} (ha : S a) {dest : Place} (hd : a.dest? = some dest) (m : Machine)
    (value : Word) : m.Spares S (m.store dest value) := by
  cases dest with
  | register name =>
    refine { refl S m with registers := ?_ }
    intro r hr
    have hne : name ≠ r := by
      rintro rfl
      exact hr a ha hd
    simp [Machine.store, Registers.write, Std.ExtTreeMap.getElem?_insert, hne]
  | cell cell =>
    refine { refl S m with cells := ?_ }
    intro l hl
    have hne : (⟨cell.container, m.slot cell.address⟩ : Location) ≠ l :=
      fun heq => hl a cell ha hd ⟨m, heq⟩
    simp [Machine.store, Memory.write, Std.ExtTreeMap.getElem?_insert, hne]

end Machine.Spares

/-! ## Tasks -/

/-- An action of the set that calls nothing. -/
theorem Action.exec_spares {S : Action → Prop} {a : Action} (ha : S a) (hc : a.callee? = none)
    (call : String → Nat → Machine → Outcome) (line : Nat) (m : Machine) :
    m.Spares S (a.exec call line m).machine := by
  cases a with
  | mov dest src =>
    have hstore := Machine.Spares.store ha rfl m (m.value src)
    refine { hstore with journal := ?_ }
    intro hmov
    cases hmov _ ha
  | arith op dest src =>
    simp only [exec]
    split
    · exact .store ha rfl m _
    · split <;> exact .refl S m
  | push src =>
    refine { Machine.Spares.refl S m with stack := ?_ }
    intro hstack
    cases hstack _ ha
  | pop dest =>
    simp only [exec]
    split
    · exact .refl S m
    · rename_i value rest _
      have hpop : m.Spares S { m with stack := rest } :=
        { Machine.Spares.refl S m with stack := fun hstack => by cases hstack _ ha }
      exact hpop.trans (.store ha rfl _ value)
  | call f => cases hc
  | print items =>
    refine { Machine.Spares.refl S m with output := ?_ }
    intro hprint
    cases hprint _ ha
  | idle c => exact .refl S m
  | fault f => exact .refl S m

/-- The actions that are written in a task. -/
def Task.actions : Task → List Action
  | .statement _ s => s.actions
  | .loop _ _ body _ => body.actions
  | .code body => body.flatMap (·.statement.actions)

/-- A relation between the states of a machine that every piece of an execution respects, as far as
the actions belong to a set. -/
structure Machine.RespectedBy (S : Action → Prop) (R : Machine → Machine → Prop) : Prop where
  refl : ∀ m, R m m
  trans : ∀ {a b c}, R a b → R b c → R a c
  tick : ∀ m, R m m.tick
  action : ∀ {a : Action}, S a → a.callee? = none →
    ∀ call line m, R m (a.exec call line m).machine
  enter : ∀ m f line, R m (m.enter f line)
  leave : ∀ o : Outcome, R o.machine o.leave.machine
  kept : ∀ o : Outcome, R o.machine o.kept

theorem Machine.Spares.respected (S : Action → Prop) : Machine.RespectedBy S (Machine.Spares S) :=
  ⟨refl S, trans, tick S, Action.exec_spares, enter S, leave S, kept S⟩

section
variable {S : Action → Prop} {R : Machine → Machine → Prop} (hR : Machine.RespectedBy S R)
include hR

/-- **Pieces of a set make a whole.** What every piece with actions of a set respects holds between
the start and the end of a task, if its actions belong to the set and the set is closed under
calls. -/
theorem Evaluates.relatesWithin {t : Task} {m : Machine} {n : Nat} {o : Outcome}
    (h : Evaluates t m n o) (closed : ClosedUnderCalls m.functions S)
    (ht : ∀ a ∈ t.actions, S a) : R m o.machine := by
  induction h with
  | exhausted hs => exact hR.refl _
  | action hs ha =>
    exact hR.trans (hR.tick _) (hR.action (ht _ (by simp [Task.actions])) ha _ _ _)
  | refused hs he => exact hR.tick _
  | @called line text f m body n o hs he _ ih =>
    obtain ⟨-, hbody⟩ := Machine.entry_ok_iff.1 he
    have hcode : ∀ a ∈ (Task.code body).actions, S a := by
      intro a ha
      obtain ⟨i, hi, hai⟩ := List.mem_flatMap.1 ha
      exact closed f body (ht _ (by simp [Task.actions])) hbody i hi a hai
    have henter := hR.trans (hR.tick m) (hR.enter m.tick f line)
    exact hR.trans henter (hR.trans (ih closed hcode) (hR.leave o))
  | skipped hs hc => exact hR.tick _
  | taken hs hc _ ih => exact hR.trans (hR.tick _) (ih closed ht)
  | looped hs hg _ ih => exact hR.trans (hR.tick _) (ih closed ht)
  | loopEnds hg => exact hR.refl _
  | loopGoes hg hb _ ihb ihl =>
    have hf := hb.grows.functions
    exact hR.trans (ihb closed ht) (ihl (hf ▸ closed) ht)
  | loopFails hg _ ih => rw [Outcome.machine_inLoop]; exact ih closed ht
  | codeEnds => exact hR.refl _
  | @codeGoes i rest m n n' o o' hi hfatal _ ihi ihr =>
    obtain ⟨hhead, hrest⟩ := List.forall_mem_append.1 ht
    have hf := (hi.grows.trans (.kept o)).functions
    exact hR.trans (hR.trans (ihi closed hhead) (hR.kept o)) (ihr (hf ▸ closed) hrest)
  | codeStops _ hfatal ih => exact ih closed (List.forall_mem_append.1 ht).1

/-! ## Instructions and runs -/

theorem Run.step_relates {r : Run} (closed : ClosedUnderCalls r.machine.functions S)
    {i : Instruction} (hi : ∀ a ∈ i.statement.actions, S a) :
    R r.machine (r.step i).machine := by
  obtain ⟨m, trace, halted⟩ := r
  cases halted with
  | true => exact hR.refl m
  | false =>
    obtain ⟨n, hn⟩ := evaluates_execute m i
    rw [Run.step_live]
    exact hR.trans (hn.relatesWithin hR closed hi) (hR.kept _)

theorem Machine.run_relates {m : Machine} (closed : ClosedUnderCalls m.functions S)
    {code : List Instruction} (hcode : ∀ i ∈ code, ∀ a ∈ i.statement.actions, S a) :
    R m (m.run code).machine := by
  suffices h : ∀ r : Run, ClosedUnderCalls r.machine.functions S →
      R r.machine (code.foldl Run.step r).machine from h ⟨m, #[], false⟩ closed
  induction code with
  | nil => intro r _; exact hR.refl _
  | cons i rest ih =>
    intro r hr
    obtain ⟨hi, hrest⟩ := List.forall_mem_cons.1 hcode
    have hf := (r.step_grows i).1.functions
    exact hR.trans (Run.step_relates hR hr hi) (ih hrest _ (hf ▸ hr))

end

/-- The functions of a program call nothing but what is written in it. -/
theorem Program.machine_closed (p : Program) (limits : Limits) :
    ClosedUnderCalls (p.machine limits).functions
      fun a => ∃ i ∈ p.instructions, a ∈ i.statement.actions := by
  rw [p.machine_functions]
  exact p.instructions_closed

/-- **Footprint of a task.** A task whose actions belong to a set closed under calls changes nothing
but what actions of the set write, however it ends. -/
theorem Evaluates.spares {S : Action → Prop} {t : Task} {m : Machine} {n : Nat} {o : Outcome}
    (h : Evaluates t m n o) (closed : ClosedUnderCalls m.functions S)
    (ht : ∀ a ∈ t.actions, S a) : m.Spares S o.machine :=
  h.relatesWithin (Machine.Spares.respected S) closed ht

/-- **Static footprint.** Whatever comes of an instruction, it changes no register that is not the
destination of an action in it or behind its calls, and no cell of a container that is not the
container of such a destination. Without a push or a pop among these actions the stack stays as it
is, without a print the output, and without a move the journal. -/
theorem writes_stay_in_footprint (m : Machine) (i : Instruction) :
    let occurs := Occurs m.functions i.statement.actions
    let m' := (m.execute i).machine
    (∀ r, (∀ a, occurs a → a.dest? ≠ some (.register r)) →
      m'.registers[r]? = m.registers[r]?) ∧
    (∀ container, (∀ a cell, occurs a → a.dest? = some (.cell cell) → cell.container ≠ container) →
      ∀ slot, m'.memory[(⟨container, slot⟩ : Location)]? =
        m.memory[(⟨container, slot⟩ : Location)]?) ∧
    ((∀ a, occurs a → a.usesStack = false) → m'.stack = m.stack) ∧
    ((∀ a, occurs a → a.isPrint = false) → m'.output = m.output) ∧
    ((∀ a, occurs a → a.isMov = false) → m'.journal = m.journal) := by
  intro occurs m'
  obtain ⟨n, hn⟩ := evaluates_execute m i
  have h := hn.spares (Occurs.closed m.functions i.statement.actions) fun a ha => .here ha
  exact ⟨h.registers, fun container hc slot => h.memory ⟨container, slot⟩ hc, h.stack, h.output,
    h.journal⟩

/-- Two functions that call each other, on a machine with a register and a stack in use. -/
def circleMachine : Machine :=
  { limits := ⟨12, 256⟩
    registers := (∅ : Registers).write "kept" 7
    stack := [1]
    functions := ((∅ : Functions).insert "ping"
        [⟨2, .simple "add n, 1" (.arith .add "n" (.literal 1))⟩,
         ⟨3, .simple "call pong" (.call "pong")⟩]).insert "pong"
        [⟨6, .simple "print n" (.print [.value (.place (.register "n"))])⟩,
         ⟨7, .simple "call ping" (.call "ping")⟩] }

def circleCall : Instruction :=
  ⟨9, .block "loop for 2 call ping" (.times (.literal 2)) (.simple "call ping" (.call "ping"))⟩

/-- All that can be executed behind the call. -/
def circleActions : List Action :=
  [.arith .add "n" (.literal 1), .call "pong", .print [.value (.place (.register "n"))],
   .call "ping"]

theorem circleActions_closed : ClosedUnderCalls circleMachine.functions (· ∈ circleActions) := by
  intro f body hf hbody
  have hping : circleMachine.functions["ping"]? = some
      [⟨2, .simple "add n, 1" (.arith .add "n" (.literal 1))⟩,
       ⟨3, .simple "call pong" (.call "pong")⟩] := by decide
  have hpong : circleMachine.functions["pong"]? = some
      [⟨6, .simple "print n" (.print [.value (.place (.register "n"))])⟩,
       ⟨7, .simple "call ping" (.call "ping")⟩] := by decide
  have hname : f = "pong" ∨ f = "ping" := by simpa [circleActions] using hf
  rcases hname with rfl | rfl
  · rw [hpong] at hbody
    cases hbody
    decide
  · rw [hping] at hbody
    cases hbody
    decide

/-- The circle goes on until the budget ends it. It writes its own register and the output; the
other register, the stack and the journal are as before. -/
theorem writes_stay_in_footprint_circle :
    (circleMachine.execute circleCall).isFatal = true ∧
    (circleMachine.execute circleCall).machine.registers["n"]? = some 3 ∧
    (circleMachine.execute circleCall).machine.registers["kept"]? =
      circleMachine.registers["kept"]? ∧
    (circleMachine.execute circleCall).machine.stack = circleMachine.stack ∧
    (circleMachine.execute circleCall).machine.journal = circleMachine.journal := by
  obtain ⟨hregisters, -, hstack, -, hjournal⟩ := writes_stay_in_footprint circleMachine circleCall
  have hoccurs : ∀ a, Occurs circleMachine.functions circleCall.statement.actions a →
      a ∈ circleActions := fun a => Occurs.least circleActions_closed (by decide)
  have hdest : ∀ a ∈ circleActions, a.dest? ≠ some (.register "kept") := by decide
  have hother : ∀ a ∈ circleActions, a.usesStack = false ∧ a.isMov = false := by decide
  exact ⟨by decide, by decide, hregisters "kept" fun a ha => hdest a (hoccurs a ha),
    hstack fun a ha => (hother a (hoccurs a ha)).1,
    hjournal fun a ha => (hother a (hoccurs a ha)).2⟩

end LineAsm
