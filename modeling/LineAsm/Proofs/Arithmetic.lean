import LineAsm.Proofs.Footprint
import LineAsm.Proofs.Limits
import LineAsm.Proofs.Operands

/-!
# Exact arithmetic

Values are words of 64 bits, and an operation whose result is no word fails. So arithmetic can be
read over the integers: what a machine computes is the true result, or nothing. `Arith.Yields` says
what the true result is. For a quotient it is said by what is left of the dividend and not by a
division.

Results:
* `Arith.exact_eq_some_iff`: the result is computed by `Arith.exact`, and there is at most one.
* `Arith.apply_eq_some_iff`, `Arith.apply_eq_none_iff`: on words, the true result or nothing.
* `Machine.AllValues.respected`: a set of integers with zero, the literals of some actions and all
  results in it that are words is left by no value when these actions are executed.
* `Program.run_derives`: so every value in a run of a program is derived from its literals.
* `arithmetic_is_exact_or_refused`: what one statement does, and what follows for all states.
-/
namespace LineAsm

/-! ## Results over the integers -/

/-- The operation on `a` and `b` has the result `e`. A quotient is cut toward zero: what is left of
the dividend is less than the divisor, by absolute value, and is not of the other sign. -/
def Arith.Yields : Arith → Int → Int → Int → Prop
  | .add, a, b, e => e = a + b
  | .sub, a, b, e => e = a - b
  | .mul, a, b, e => e = a * b
  | .div, a, b, e =>
    ∃ rest, a = b * e + rest ∧ rest.natAbs < b.natAbs ∧ (0 ≤ a → 0 ≤ rest) ∧ (a ≤ 0 → rest ≤ 0)

theorem tdiv_eq_of_rest {a b e rest : Int} (hsum : a = b * e + rest)
    (hless : rest.natAbs < b.natAbs) (hpos : 0 ≤ a → 0 ≤ rest) (hneg : a ≤ 0 → rest ≤ 0) :
    a.tdiv b = e := by
  have hb : b ≠ 0 := by
    rintro rfl
    exact absurd hless (Nat.not_lt_zero _)
  have hsum' : rest + b * e = a := by rw [hsum, Int.add_comm]
  rcases Int.le_total 0 a with ha | ha
  · have hrest := hpos ha
    exact ((Int.tdiv_tmod_unique ha hb).2 ⟨hsum', hrest, by omega⟩).1
  · have hrest := hneg ha
    exact ((Int.tdiv_tmod_unique' ha hb).2 ⟨hsum', by omega, hrest⟩).1

theorem yields_div_tdiv (a : Int) {b : Int} (hb : b ≠ 0) : Arith.div.Yields a b (a.tdiv b) := by
  have hless : (a.tmod b).natAbs < b.natAbs := by
    rw [Int.natAbs_tmod]
    exact Nat.mod_lt _ (Int.natAbs_pos.2 hb)
  refine ⟨a.tmod b, ?_, hless, fun ha => Int.tmod_nonneg b ha, ?_⟩
  · rw [Int.add_comm, Int.tmod_add_mul_tdiv]
  · intro ha
    have hneg := Int.tmod_nonneg b (Int.neg_nonneg_of_nonpos ha)
    rw [Int.neg_tmod] at hneg
    omega

namespace Arith

theorem exact_eq_some_iff {op : Arith} {a b e : Int} :
    op.exact a b = some e ↔ op.Yields a b e := by
  cases op with
  | add | sub | mul => simp [exact, Yields, eq_comm]
  | div =>
    by_cases hb : b = 0
    · simp [exact, Yields, hb]
    · simp only [exact, if_neg hb, Option.some.injEq]
      constructor
      · rintro rfl
        exact yields_div_tdiv a hb
      · rintro ⟨rest, hsum, hless, hpos, hneg⟩
        exact tdiv_eq_of_rest hsum hless hpos hneg

/-- Only a quotient by zero has no result. -/
theorem exists_yields_iff {op : Arith} {a b : Int} :
    (∃ e, op.Yields a b e) ↔ ¬ (op = .div ∧ b = 0) := by
  simp only [← exact_eq_some_iff]
  cases op with
  | add | sub | mul => simp [exact]
  | div => by_cases hb : b = 0 <;> simp [exact, hb]

end Arith

/-! ## Results that are words -/

namespace Word

theorem inRange (w : Word) : least ≤ w.toInt ∧ w.toInt ≤ greatest := by
  have hle := w.le_toInt
  have hlt := w.toInt_lt
  unfold least greatest
  omega

theorem ofInt?_eq_some_iff {n : Int} {w : Word} : ofInt? n = some w ↔ w.toInt = n := by
  constructor
  · intro h
    unfold ofInt? least greatest at h
    split at h
    · cases h
      exact Int64.toInt_ofInt_of_le (by omega) (by omega)
    · cases h
  · rintro rfl
    exact ofInt?_toInt w

theorem exists_toInt_eq {n : Int} (hlow : least ≤ n) (hhigh : n ≤ greatest) :
    ∃ w : Word, w.toInt = n :=
  ⟨Int64.ofInt n, ofInt?_eq_some_iff.1 (if_pos ⟨hlow, hhigh⟩)⟩

end Word

namespace Arith

variable {op : Arith} {a b : Word}

theorem apply_eq_some_iff {w : Word} :
    op.apply a b = some w ↔ op.Yields a.toInt b.toInt w.toInt := by
  unfold apply
  simp only [Option.bind_eq_some_iff, exact_eq_some_iff, Word.ofInt?_eq_some_iff]
  exact exists_eq_right'

theorem apply_eq_none_iff :
    op.apply a b = none ↔
      ∀ e, op.Yields a.toInt b.toInt e → ¬ (Word.least ≤ e ∧ e ≤ Word.greatest) := by
  constructor
  · rintro hnone e he ⟨hlow, hhigh⟩
    obtain ⟨w, rfl⟩ := Word.exists_toInt_eq hlow hhigh
    rw [apply_eq_some_iff.2 he] at hnone
    cases hnone
  · intro hout
    cases happly : op.apply a b with
    | none => rfl
    | some w => exact absurd w.inRange (hout _ (apply_eq_some_iff.1 happly))

end Arith

/-! ## The values of a machine -/

/-- All values in the registers, in the memory and on the stack belong to a set. -/
structure Machine.AllValues (P : Int → Prop) (m : Machine) : Prop where
  registers : ∀ name, P (m.registers.read name).toInt
  memory : ∀ container slot, P (m.memory.read container slot).toInt
  stack : ∀ w ∈ m.stack, P w.toInt

/-- The operand whose value an action takes in. -/
def Action.src? : Action → Option Operand
  | .mov _ src | .arith _ _ src | .push src => some src
  | _ => none

/-- A set of integers with zero and with all results of operations in it that are words. -/
structure ClosedUnderArith (P : Int → Prop) : Prop where
  zero : P 0
  result : ∀ {op : Arith} {a b e : Int}, P a → P b → op.Yields a b e → Word.least ≤ e →
    e ≤ Word.greatest → P e

namespace Machine.AllValues

variable {P : Int → Prop} {m : Machine}

/-- A machine that has done nothing holds zeros. -/
theorem fresh (zero : P 0) (limits : Limits) (functions : Functions) :
    (Machine.fresh limits functions).AllValues P where
  registers _ := by simpa [Machine.fresh, Registers.read] using zero
  memory _ _ := by simpa [Machine.fresh, Memory.read] using zero
  stack := by simp [Machine.fresh]

/-- Values are those that the machine holds, and literals. -/
theorem value (h : m.AllValues P) {x : Operand} (hx : ∀ w, x = .literal w → P w.toInt) :
    P (m.value x).toInt := by
  cases x with
  | literal w => exact hx w rfl
  | place place =>
    cases place with
    | register name => exact h.registers name
    | cell cell => exact h.memory _ _

theorem store (h : m.AllValues P) (dest : Place) {value : Word} (hvalue : P value.toInt) :
    (m.store dest value).AllValues P := by
  cases dest with
  | register name =>
    refine { h with registers := ?_ }
    intro other
    simp only [Machine.store, Registers.write, Registers.read, Std.ExtTreeMap.getD_insert]
    split
    · exact hvalue
    · exact h.registers other
  | cell cell =>
    refine { h with memory := ?_ }
    intro container slot
    simp only [Machine.store, Memory.write, Memory.read, Std.ExtTreeMap.getD_insert]
    split
    · exact hvalue
    · exact h.memory container slot

/-- **One action.** It takes in a literal or a value of the machine, and what it computes is a
result that is a word. -/
theorem exec (hP : ClosedUnderArith P) (h : m.AllValues P) {a : Action} (hc : a.callee? = none)
    (ha : ∀ w, a.src? = some (.literal w) → P w.toInt)
    (call : String → Nat → Machine → Outcome) (line : Nat) :
    (a.exec call line m).machine.AllValues P := by
  have hsrc : ∀ x, a.src? = some x → P (m.value x).toInt := by
    intro x hx
    exact h.value fun w hw => ha w (by rw [hx, hw])
  cases a with
  | mov dest src =>
    have hstore := h.store dest (hsrc src rfl)
    exact { hstore with }
  | arith op dest src =>
    simp only [Action.exec]
    split
    · rename_i value happly
      have hyields := Arith.apply_eq_some_iff.1 happly
      obtain ⟨hlow, hhigh⟩ := value.inRange
      exact h.store (.register dest)
        (hP.result (h.registers dest) (hsrc src rfl) hyields hlow hhigh)
    · split <;> exact h
  | push src => exact { h with stack := List.forall_mem_cons.2 ⟨hsrc src rfl, h.stack⟩ }
  | pop dest =>
    simp only [Action.exec]
    split
    · exact h
    · rename_i value rest hstack
      obtain ⟨hvalue, hrest⟩ := List.forall_mem_cons.1 (hstack ▸ h.stack)
      have hpop : { m with stack := rest }.AllValues P := { h with stack := hrest }
      exact hpop.store dest hvalue
  | call f => cases hc
  | print items => exact { h with }
  | idle c => exact h
  | fault f => exact h

/-- The set is left by no value when actions are executed whose literals belong to it. -/
theorem respected (hP : ClosedUnderArith P) {S : Action → Prop}
    (hS : ∀ a w, S a → a.src? = some (.literal w) → P w.toInt) :
    Machine.RespectedBy S fun m m' => m.AllValues P → m'.AllValues P where
  refl _ h := h
  trans hab hbc h := hbc (hab h)
  tick _ h := { h with }
  action ha hc call line _ h := exec hP h hc (fun w hw => hS _ w ha hw) call line
  enter _ _ _ h := { h with }
  leave _ h := { h with }
  kept o h := by
    unfold Outcome.kept
    split
    · exact h
    · exact { h with }

end Machine.AllValues

/-! ## Points of a run -/

/-- What every piece with actions of a set respects holds between the start of a task and all its
points. -/
theorem Passes.relatesWithin {S : Action → Prop} {R : Machine → Machine → Prop}
    (hR : Machine.RespectedBy S R) {t : Task} {m : Machine} {o : Outcome} (h : Passes t m o)
    (closed : ClosedUnderCalls m.functions S) (ht : ∀ a ∈ t.actions, S a) : R m o.machine := by
  induction h with
  | starts => exact hR.refl _
  | ticks hs => exact hR.tick _
  | ends h => exact h.relatesWithin hR closed ht
  | @called line text f m body o hs hf _ ih =>
    obtain ⟨-, hbody⟩ := Machine.entry_ok_iff.1 hf
    have hcode : ∀ a ∈ (Task.code body).actions, S a := by
      intro a ha
      obtain ⟨i, hi, hai⟩ := List.mem_flatMap.1 ha
      exact closed f body (ht _ (by simp [Task.actions])) hbody i hi a hai
    have henter := hR.trans (hR.tick m) (hR.enter m.tick f line)
    exact hR.trans henter (ih closed hcode)
  | taken hs hc _ ih => exact hR.trans (hR.tick _) (ih closed ht)
  | looped hs hg _ ih => exact hR.trans (hR.tick _) (ih closed ht)
  | loopBody hg _ ih => exact ih closed ht
  | loopNext hg hb _ ih =>
    have hf := hb.grows.functions
    exact hR.trans (hb.relatesWithin hR closed ht) (ih (hf ▸ closed) ht)
  | codeFirst _ ih => exact ih closed (List.forall_mem_append.1 ht).1
  | @codeNext i rest m n o o' hi hfatal _ ih =>
    obtain ⟨hhead, hrest⟩ := List.forall_mem_append.1 ht
    have hf := (hi.grows.trans (.kept o)).functions
    have hfirst := hR.trans (hi.relatesWithin hR closed hhead) (hR.kept o)
    exact hR.trans hfirst (ih (hf ▸ closed) hrest)

/-- The integers that a program can compute: zero, the literals of its actions, and the results of
operations on them that are words. -/
inductive Program.Derives (p : Program) : Int → Prop
  | zero : p.Derives 0
  | literal {i : Instruction} {a : Action} {w : Word} (mem : i ∈ p.instructions)
      (action : a ∈ i.statement.actions) (src : a.src? = some (.literal w)) : p.Derives w.toInt
  | result {op : Arith} {a b e : Int} (left : p.Derives a) (right : p.Derives b)
      (yields : op.Yields a b e) (low : Word.least ≤ e) (high : e ≤ Word.greatest) : p.Derives e

namespace Program

variable (p : Program) (limits : Limits)

theorem derives_closed : ClosedUnderArith p.Derives := ⟨.zero, .result⟩

theorem machine_allValues {P : Int → Prop} (zero : P 0) : (p.machine limits).AllValues P := by
  obtain ⟨functions, hload⟩ := Machine.load_eq { limits } p
  rw [Program.machine, hload]
  exact .fresh zero limits functions

/-- **Runs are exact.** At every point of every instruction of a run, the values of the machine are
derived from the literals of the program. -/
theorem run_derives {before after : List Instruction} {i : Instruction}
    (hcode : p.code = before ++ i :: after) {o : Outcome}
    (ho : Passes (.statement i.line i.statement) ((p.machine limits).run before).machine o) :
    o.machine.AllValues p.Derives := by
  have hR := Machine.AllValues.respected p.derives_closed
    (S := fun a => ∃ i ∈ p.instructions, a ∈ i.statement.actions)
    fun _ _ ⟨_, mem, action⟩ src => .literal mem action src
  have hclosed := p.machine_closed limits
  have hactions : ∀ j ∈ before ++ [i], ∀ a ∈ j.statement.actions,
      ∃ i ∈ p.instructions, a ∈ i.statement.actions := by
    intro j hj a ha
    have hmem : j ∈ p.code := by
      rw [hcode, List.append_cons]
      exact List.mem_append_left _ hj
    exact ⟨j, List.mem_append_left _ hmem, ha⟩
  obtain ⟨hearlier, hlast⟩ := List.forall_mem_append.1 hactions
  have hbefore := Machine.run_relates hR hclosed hearlier
  have hfunctions := (Machine.run_grows (p.machine limits) before).functions
  have hpoint := ho.relatesWithin hR (hfunctions ▸ hclosed) (hlast i (by simp))
  exact hpoint (hbefore (p.machine_allValues limits .zero))

end Program

/-! ## One statement -/

theorem Statement.exec_arith {m : Machine} (hm : m.steps < m.limits.maxSteps)
    (call : String → Nat → Machine → Outcome) (line : Nat) (text : String) (op : Arith)
    (dest : String) (src : Operand) :
    (Statement.simple text (.arith op dest src)).exec call line m =
      match op.apply (m.registers.read dest) (m.value src) with
      | some value => ⟨{ m.tick with registers := m.registers.write dest value }, none⟩
      | none => m.tick.fail line
          (if op = .div ∧ m.value src = 0 then .divisionByZero else .overflow op) := by
  have hvalue : m.tick.value src = m.value src := Machine.value_congr rfl rfl src
  unfold Statement.exec Machine.withStep
  rw [if_neg (Nat.not_le.2 hm)]
  show (Action.arith op dest src).exec call line m.tick = _
  simp only [Action.exec, hvalue]
  show (match op.apply (m.registers.read dest) (m.value src) with | some _ => _ | none => _) = _
  split
  · rfl
  · split <;> rfl

/-- **Arithmetic is exact or refused.** On a machine with budget left, an operation on the register
`dest` and an operand computes with their values `a` and `b`, whatever the operand is. If the result
over the integers is a word, it is written to the register, and only a step is taken besides. If it
is none, or if there is no result, nothing is written and the statement fails: with a division by
zero if it is one, otherwise with an overflow in the operation. There is no result exactly for a
division by zero.

So nothing ever wraps. All values of a machine are words, and at every point of a run they are
derived from the literals of the program by operations whose results are words. -/
theorem arithmetic_is_exact_or_refused (m : Machine) (hm : m.steps < m.limits.maxSteps)
    (call : String → Nat → Machine → Outcome) (line : Nat) (text : String) (op : Arith)
    (dest : String) (src : Operand) :
    let a := (m.registers.read dest).toInt
    let b := (m.value src).toInt
    let o := (Statement.simple text (.arith op dest src)).exec call line m
    (∀ e, op.Yields a b e → Word.least ≤ e → e ≤ Word.greatest →
      (∃ w : Word, o.machine.registers[dest]? = some w ∧ w.toInt = e) ∧
      (∀ other, other ≠ dest → o.machine.registers[other]? = m.registers[other]?) ∧
      o = ⟨{ m with steps := m.steps + 1, registers := o.machine.registers }, none⟩) ∧
    ((∀ e, op.Yields a b e → ¬ (Word.least ≤ e ∧ e ≤ Word.greatest)) →
      o = ⟨{ m with steps := m.steps + 1 },
        some ⟨if op = .div ∧ b = 0 then .divisionByZero else .overflow op, line, m.frames⟩⟩) ∧
    ((∃ e, op.Yields a b e) ↔ ¬ (op = .div ∧ b = 0)) ∧
    (∀ m' : Machine, m'.AllValues fun n => Word.least ≤ n ∧ n ≤ Word.greatest) ∧
    ∀ (p : Program) (limits : Limits) (before after : List Instruction) (i : Instruction)
      (o : Outcome), p.code = before ++ i :: after →
      Passes (.statement i.line i.statement) ((p.machine limits).run before).machine o →
      o.machine.AllValues p.Derives := by
  intro a b o
  have ho : o = _ := Statement.exec_arith hm call line text op dest src
  refine ⟨?_, ?_, Arith.exists_yields_iff, ?_, ?_⟩
  · intro e he hlow hhigh
    obtain ⟨w, rfl⟩ := Word.exists_toInt_eq hlow hhigh
    rw [Arith.apply_eq_some_iff.2 he] at ho
    rw [ho]
    refine ⟨⟨w, by simp [Registers.write], rfl⟩, ?_, rfl⟩
    intro other hother
    simp [Registers.write, Std.ExtTreeMap.getElem?_insert, hother.symm]
  · intro hout
    have hzero : m.value src = 0 ↔ b = 0 := by
      rw [← Int64.toInt_inj]
      rfl
    simp only [Arith.apply_eq_none_iff.2 hout, hzero] at ho
    exact ho
  · intro m'
    exact ⟨fun _ => Word.inRange _, fun _ _ => Word.inRange _, fun w _ => w.inRange⟩
  · intro p limits before after i o hcode ho
    exact p.run_derives limits hcode ho

/-- The least word in a register, and a cell whose index is the value of another one. -/
def edgeMachine : Machine :=
  { limits := ⟨5, 0⟩
    registers := ((∅ : Registers).write "r" (-7)).write "low" Int64.minValue
    memory := (∅ : Memory).write "a" (.index (-7)) 2
    steps := 4 }

/-- A negative quotient whose dividend is also the index of the divisor, the least word divided by
minus one, and a division by a register that was never written. -/
theorem arithmetic_is_exact_or_refused_edges :
    edgeMachine.steps < edgeMachine.limits.maxSteps ∧
    (∃ w : Word, (edgeMachine.execute ⟨3, .simple "div r, a[r]"
      (.arith .div "r" (.place (.cell ⟨"a", .index (.register "r")⟩)))⟩).machine.registers["r"]? =
        some w ∧ w.toInt = -3) ∧
    (edgeMachine.execute ⟨3, .simple "div low, -1" (.arith .div "low" (.literal (-1)))⟩).error? =
      some ⟨.overflow .div, 3, []⟩ ∧
    (edgeMachine.execute ⟨3, .simple "div r, unset"
      (.arith .div "r" (.place (.register "unset")))⟩).error? = some ⟨.divisionByZero, 3, []⟩ := by
  have hm : edgeMachine.steps < edgeMachine.limits.maxSteps := by decide
  have hlow : ∀ e, Arith.div.Yields (edgeMachine.registers.read "low").toInt
      (edgeMachine.value (.literal (-1))).toInt e → ¬ (Word.least ≤ e ∧ e ≤ Word.greatest) := by
    intro e he
    have hexact : Arith.div.exact (edgeMachine.registers.read "low").toInt
        (edgeMachine.value (.literal (-1))).toInt = some 9223372036854775808 := by decide
    cases hexact.symm.trans (Arith.exact_eq_some_iff.2 he)
    decide
  have hzero : ∀ e, Arith.div.Yields (edgeMachine.registers.read "r").toInt
      (edgeMachine.value (.place (.register "unset"))).toInt e →
        ¬ (Word.least ≤ e ∧ e ≤ Word.greatest) := by
    intro e he
    have hexact : Arith.div.exact (edgeMachine.registers.read "r").toInt
        (edgeMachine.value (.place (.register "unset"))).toInt = none := by decide
    cases hexact.symm.trans (Arith.exact_eq_some_iff.2 he)
  obtain ⟨hfits, -⟩ := arithmetic_is_exact_or_refused edgeMachine hm
    (Machine.callWithin edgeMachine.room) 3 "div r, a[r]" .div "r"
    (.place (.cell ⟨"a", .index (.register "r")⟩))
  obtain ⟨-, houtside, -⟩ := arithmetic_is_exact_or_refused edgeMachine hm
    (Machine.callWithin edgeMachine.room) 3 "div low, -1" .div "low" (.literal (-1))
  obtain ⟨-, hnone, -⟩ := arithmetic_is_exact_or_refused edgeMachine hm
    (Machine.callWithin edgeMachine.room) 3 "div r, unset" .div "r" (.place (.register "unset"))
  refine ⟨hm, (hfits (-3) ⟨-1, ?_⟩ ?_ ?_).1, ?_, ?_⟩
  · decide
  · decide
  · decide
  · exact (congrArg Outcome.error? (houtside hlow)).trans (by decide)
  · exact (congrArg Outcome.error? (hnone hzero)).trans (by decide)

end LineAsm
