import LineAsm.Proofs.Grammar

/-!
# Reloading a state

A snapshot shows a register with its name and a cell with its container and its slot, as a statement
names them. So a state can be written as a source again: one move for every register and one for
every cell. That needs names and keys that follow the grammar, which is not a matter of the machine.
All that a run has written was named in the source, and what was read there follows the grammar.

Results:
* `compile_executable`, `compile_moves`: a source of executable statements, and one of moves.
* `Machine.run_moves`: moves of literals, one after another.
* `Machine.run_moves_self`: the moves of a state lead to that state.
* `run_isSpellable`: the registers and cells that a run has written can be written in a source.
* `state_reloads`: what follows for the snapshots of a run.
-/
namespace LineAsm

open Text

/-! ## Sources that are executed as a whole -/

theorem Role.of_decode {text : String} {s : Statement} (h : Statement.decode text = some s) :
    Role.of text = .executes s := by
  have hfoot : text ≠ "end" := by
    rintro rfl
    have hnone := instruction?_end 0
    simp [instruction?, h] at hnone
  unfold Role.of
  rw [functionDeclaration?_of_decode h]
  simp only [if_neg hfoot, h]
  cases hshape : Shape.of text.toList with
  | declaration => simp [Statement.decode, hshape, Shape.decode] at h
  | _ => rfl

/-- Every statement of the list is executed. -/
def IsExecutable (l : List (Nat × String)) : Prop :=
  ∀ s ∈ l, ∃ statement, Statement.decode s.2 = some statement

namespace Builder

/-- The builder with the instructions of a list of statements in its main code. -/
def withCode (b : Builder) (l : List (Nat × String)) : Builder :=
  { b with code := b.code ++ (l.filterMap instruction?).toArray }

theorem withCode_nil (b : Builder) : b.withCode [] = b := by simp [withCode]

theorem withCode_append (b : Builder) (l l' : List (Nat × String)) :
    b.withCode (l ++ l') = (b.withCode l).withCode l' := by
  simp [withCode]

variable {b : Builder}

theorem statement_executable (hb : b.block = none) {s : Nat × String} {statement : Statement}
    (h : Statement.decode s.2 = some statement) : b.statement s.1 s.2 = b.withCode [s] := by
  simp [Builder.statement, Role.of_decode h, emit, hb, withCode, instruction?, h]

theorem statements_executable (hb : b.block = none) {l : List (Nat × String)}
    (h : IsExecutable l) : b.statements l = b.withCode l := by
  induction l generalizing b with
  | nil => rw [statements_nil, withCode_nil]
  | cons s l ih =>
    obtain ⟨⟨statement, hs⟩, hl⟩ := List.forall_mem_cons.1 h
    rw [statements_cons, statement_executable hb hs, ih (b := b.withCode [s]) hb hl,
      ← withCode_append, List.singleton_append]

theorem line_executable (hb : b.block = none) (number : Nat) {texts : List String}
    (h : IsExecutable (texts.map fun text => (number, text))) :
    b.line number texts = b.withCode (texts.map fun text => (number, text)) := by
  have hfold : b.statements (texts.map fun text => (number, text)) =
      texts.foldl (fun b text => b.statement number text) b := List.foldl_map
  have hrecognized : (texts.filter fun text => (Role.of text).isUnrecognized) = [] := by
    rw [List.filter_eq_nil_iff]
    intro text htext
    obtain ⟨statement, hs⟩ := h _ (List.mem_map_of_mem htext)
    simp [Role.of_decode hs, Role.isUnrecognized]
  unfold line
  rw [← hfold, statements_executable hb h, hrecognized]

theorem lines_executable (hb : b.block = none) {lines : List (Nat × List Char)}
    (h : IsExecutable
      (lines.flatMap fun l => (lineStatements l.2).map fun text => (l.1, text))) :
    lines.foldl (fun b l => b.line l.1 (lineStatements l.2)) b =
      b.withCode (lines.flatMap fun l => (lineStatements l.2).map fun text => (l.1, text)) := by
  induction lines generalizing b with
  | nil => rw [List.flatMap_nil, withCode_nil, List.foldl_nil]
  | cons l lines ih =>
    rw [List.flatMap_cons] at h ⊢
    obtain ⟨hl, hrest⟩ := List.forall_mem_append.1 h
    rw [List.foldl_cons, line_executable hb l.1 hl, ih (b := b.withCode _) hb hrest,
      withCode_append]

end Builder

/-- A source of executable statements has their instructions, and nothing is wrong with it. -/
theorem compile_executable {source : String} (h : IsExecutable (statements source)) :
    compile source = ⟨(statements source).filterMap instruction?, ∅, [], []⟩ := by
  rw [← flatMap_codeLines] at h ⊢
  unfold compile
  rw [Builder.lines_executable rfl h]
  simp [Builder.withCode, Builder.finish]

/-! ## Moves -/

namespace Move

/-- The statement that makes a move. -/
def line (move : Move) : String := "mov " ++ move.dest.render ++ ", " ++ move.value.render

def instruction (move : Move) (number : Nat) : Instruction :=
  ⟨number, .simple move.line (.mov move.dest (.literal move.value))⟩

variable {move : Move}

theorem toList_line (move : Move) :
    move.line.toList = "mov ".toList ++ (move.dest.render.toList ++ ", ".toList) ++
      move.value.render.toList := by
  unfold line
  simp

theorem isStatement_line (h : move.dest.isGrammatical = true) :
    IsStatement move.line.toList ∧ '\n' ∉ move.line.toList := by
  have hdest := (Place.toList_render h).1
  have habsent : ∀ c, isTokenChar c = false → c ∉ move.dest.render.toList := by
    intro c hc hmem
    rw [hdest.2 c hmem] at hc
    cases hc
  have hletter : StartsWithLetter ("mov ".toList ++ (move.dest.render.toList ++ ", ".toList)) :=
    ⟨'m', _, rfl, by decide⟩
  rw [toList_line]
  refine isStatement_token hletter ?_ ?_ (isToken_of_isKey move.value.isKey_render)
  · simp [habsent ';' (by decide)]
  · simp [habsent '\n' (by decide)]

theorem instruction?_line (h : move.dest.isGrammatical = true) (number : Nat) :
    instruction? (number, move.line) = some (move.instruction number) := by
  have haction : (Action.mov move.dest (.literal move.value)).isGrammatical = true := by
    simp [Action.isGrammatical, Operand.isGrammatical, h]
  have hword : lowerCase "mov".toList = Mnemonic.mov.name := by decide
  have htext : move.line =
      "mov" ++ " " ++ ", ".intercalate [move.dest.render, move.value.render] := by
    rw [← String.toList_inj, toList_line]
    simp
  have hdecode := Action.decode_spelled haction rfl hword htext
  simp [instruction?, hdecode, instruction]

end Move

/-- Moves on lines of their own are compiled to just these moves. -/
theorem compile_moves {moves : List Move} (h : ∀ move ∈ moves, move.dest.isGrammatical = true) :
    compile ("\n".intercalate (moves.map Move.line)) =
      ⟨(moves.zipIdx 1).map fun l => l.1.instruction l.2, ∅, [], []⟩ := by
  have hlines : ∀ line ∈ moves.map Move.line, IsStatement line.toList ∧ '\n' ∉ line.toList := by
    intro line hline
    obtain ⟨move, hmove, rfl⟩ := List.mem_map.1 hline
    exact Move.isStatement_line (h move hmove)
  have hstatements : statements ("\n".intercalate (moves.map Move.line)) =
      (moves.zipIdx 1).map fun l => (l.2, l.1.line) := by
    rw [statements_intercalate hlines, List.zipIdx_map, List.map_map]
    rfl
  have hdecode : ∀ l ∈ moves.zipIdx 1,
      instruction? (l.2, l.1.line) = some (l.1.instruction l.2) :=
    fun l hl => Move.instruction?_line (h l.1 (List.fst_mem_of_mem_zipIdx hl)) l.2
  have hexecutable : IsExecutable ((moves.zipIdx 1).map fun l => (l.2, l.1.line)) := by
    intro s hs
    obtain ⟨l, hl, rfl⟩ := List.mem_map.1 hs
    obtain ⟨statement, hstatement, -⟩ := Option.map_eq_some_iff.1 (hdecode l hl)
    exact ⟨statement, hstatement⟩
  have hcode : ((moves.zipIdx 1).map fun l => (l.2, l.1.line)).filterMap instruction? =
      (moves.zipIdx 1).map fun l => l.1.instruction l.2 := by
    rw [List.filterMap_map, ← List.filterMap_eq_map]
    exact List.filterMap_congr hdecode
  rw [compile_executable (hstatements ▸ hexecutable), hstatements, hcode]

/-! ## Running moves -/

namespace Machine

/-- Makes a move, which takes a step. -/
def move (m : Machine) (move : Move) : Machine :=
  let m := m.tick.store move.dest move.value
  { m with journal := m.journal.push move }

theorem move_eq (m : Machine) (move : Move) :
    ∃ registers memory journal, m.move move = { m.tick with registers, memory, journal } := by
  obtain ⟨registers, memory, hstore⟩ := m.tick.store_eq move.dest move.value
  refine ⟨registers, memory, m.journal.push move, ?_⟩
  unfold Machine.move
  rw [hstore]
  rfl

theorem execute_move {m : Machine} (h : m.steps < m.limits.maxSteps) (move : Move) (number : Nat) :
    m.execute (move.instruction number) = ⟨m.move move, none⟩ := by
  unfold execute Move.instruction Statement.exec withStep
  exact if_neg (Nat.not_le.2 h)

/-- With a budget for all of them, moves are made one after another. -/
theorem run_moves {m : Machine} {moves : List Move}
    (h : m.steps + moves.length ≤ m.limits.maxSteps) (first : Nat) :
    ∃ trace, m.run ((moves.zipIdx first).map fun l => l.1.instruction l.2) =
      ⟨moves.foldl move m, trace, false⟩ := by
  induction moves generalizing m first with
  | nil => exact ⟨#[], rfl⟩
  | cons move moves ih =>
    rw [List.length_cons] at h
    have hstep : m.steps < m.limits.maxSteps := by omega
    have hbudget : (m.move move).steps + moves.length ≤ (m.move move).limits.maxSteps := by
      obtain ⟨registers, memory, journal, hmove⟩ := m.move_eq move
      rw [hmove]
      simp only [tick]
      omega
    obtain ⟨trace, hrest⟩ := ih hbudget (first + 1)
    rw [List.zipIdx_cons, List.map_cons, run_cons, execute_move hstep move first]
    simp [hrest]

end Machine

/-! ## The moves of a state -/

/-- The destination that means a location on every machine. -/
def Location.place (l : Location) : Place :=
  match l.slot with
  | .index i => .cell ⟨l.container, .index (.literal i)⟩
  | .key k => .cell ⟨l.container, .key k⟩

namespace Location

theorem render_place (l : Location) : l.place.render = l.container ++ l.slot.render := by
  obtain ⟨container, slot⟩ := l
  cases slot with
  | index i =>
    simp [place, Place.render, Cell.render, Slot.render, Index.render, String.append_assoc]
  | key k => simp [place, Place.render, Cell.render, Slot.render, String.append_assoc]

/-- Where a cell that follows the grammar can lie can be written, too. -/
theorem isGrammatical_of_reaches {l : Location} {cell : Cell}
    (hcell : cell.isGrammatical = true) (h : cell.Reaches l) : l.place.isGrammatical = true := by
  obtain ⟨container, address⟩ := cell
  obtain ⟨m, rfl⟩ := h
  simp only [Cell.isGrammatical, Bool.and_eq_true] at hcell
  obtain ⟨hname, haddress⟩ := hcell
  cases address with
  | key k => simpa [place, Machine.slot, Place.isGrammatical, Cell.isGrammatical, hname]
  | index i =>
    cases i <;> simp [place, Machine.slot, Place.isGrammatical, Cell.isGrammatical,
      Address.isGrammatical, Index.isGrammatical, hname]

end Location

def Move.ofRegister (r : String × Word) : Move := ⟨.register r.1, r.2⟩

def Move.ofCell (c : Location × Word) : Move := ⟨c.1.place, c.2⟩

namespace Machine

/-- The moves that write the registers and the cells of a machine, as its snapshots list them. -/
def moves (m : Machine) : List Move :=
  m.registers.snapshot.map Move.ofRegister ++ m.memory.snapshot.map Move.ofCell

/-- A state as a source has it: a line for every register and a line for every cell, in the order of
the snapshots. -/
def stateLines (m : Machine) : List String :=
  m.registers.snapshot.map (fun r => "mov " ++ r.1 ++ ", " ++ r.2.render) ++
    m.memory.snapshot.map fun c => "mov " ++ c.1.container ++ c.1.slot.render ++ ", " ++ c.2.render

theorem stateLines_eq (m : Machine) : m.stateLines = m.moves.map Move.line := by
  have hcell : ∀ c : Location × Word,
      "mov " ++ c.1.container ++ c.1.slot.render ++ ", " ++ c.2.render = (Move.ofCell c).line := by
    intro c
    unfold Move.ofCell Move.line
    simp only [Location.render_place, String.append_assoc]
  unfold stateLines moves
  rw [List.map_append, List.map_map, List.map_map]
  congr 1
  exact List.map_congr_left fun c _ => hcell c

theorem foldl_move_ofRegister (m : Machine) (registers : List (String × Word)) :
    ∃ steps journal, (registers.map Move.ofRegister).foldl move m =
      { m with steps, journal, registers := m.registers.insertMany registers } := by
  induction registers generalizing m with
  | nil => exact ⟨m.steps, m.journal, rfl⟩
  | cons r registers ih =>
    obtain ⟨steps, journal, hrest⟩ := ih (m.move (Move.ofRegister r))
    refine ⟨steps, journal, ?_⟩
    rw [List.map_cons, List.foldl_cons, hrest, Std.ExtTreeMap.insertMany_cons]
    rfl

theorem store_place (m : Machine) (l : Location) (value : Word) :
    m.store l.place value = { m with memory := m.memory.insert l value } := by
  obtain ⟨container, slot⟩ := l
  cases slot <;> rfl

theorem foldl_move_ofCell (m : Machine) (cells : List (Location × Word)) :
    ∃ steps journal, (cells.map Move.ofCell).foldl move m =
      { m with steps, journal, memory := m.memory.insertMany cells } := by
  induction cells generalizing m with
  | nil => exact ⟨m.steps, m.journal, rfl⟩
  | cons c cells ih =>
    obtain ⟨steps, journal, hrest⟩ := ih (m.move (Move.ofCell c))
    refine ⟨steps, journal, ?_⟩
    rw [List.map_cons, List.foldl_cons, hrest, Std.ExtTreeMap.insertMany_cons]
    unfold Machine.move Move.ofCell
    rw [store_place]
    rfl

/-- A fresh machine with a budget for the moves of a state comes to that state. -/
theorem run_moves_self (m : Machine) {limits : Limits} (h : m.moves.length ≤ limits.maxSteps)
    (first : Nat) :
    ∃ steps journal trace,
      ({ limits } : Machine).run ((m.moves.zipIdx first).map fun l => l.1.instruction l.2) =
        ⟨{ limits, steps, journal, registers := m.registers, memory := m.memory }, trace,
          false⟩ := by
  have hbudget : ({ limits } : Machine).steps + m.moves.length ≤ limits.maxSteps := by simpa using h
  obtain ⟨trace, hrun⟩ := run_moves hbudget first
  obtain ⟨steps, journal, hregisters⟩ := foldl_move_ofRegister { limits } m.registers.snapshot
  obtain ⟨steps', journal', hmemory⟩ := foldl_move_ofCell
    { limits, steps, journal, registers := (∅ : Registers).insertMany m.registers.snapshot }
    m.memory.snapshot
  refine ⟨steps', journal', trace, ?_⟩
  rw [hrun, moves, List.foldl_append, hregisters, hmemory]
  simp only [Registers.snapshot, Memory.snapshot, insertMany_toList]

/-- The names and keys of the registers and cells follow the grammar. -/
structure IsSpellable (m : Machine) : Prop where
  registers : ∀ r ∈ m.registers, isName r.toList = true
  memory : ∀ l ∈ m.memory, l.place.isGrammatical = true

theorem IsSpellable.moves {m : Machine} (h : m.IsSpellable) :
    ∀ move ∈ m.moves, move.dest.isGrammatical = true := by
  intro move hmove
  rcases List.mem_append.1 hmove with hmove | hmove
  · obtain ⟨⟨r, value⟩, hr, rfl⟩ := List.mem_map.1 hmove
    have hvalue := Std.ExtTreeMap.mem_toList_iff_getElem?_eq_some.1 hr
    exact h.registers r (by simp [Std.ExtTreeMap.mem_iff_isSome_getElem?, hvalue])
  · obtain ⟨⟨l, value⟩, hl, rfl⟩ := List.mem_map.1 hmove
    have hvalue := Std.ExtTreeMap.mem_toList_iff_getElem?_eq_some.1 hl
    exact h.memory l (by simp [Std.ExtTreeMap.mem_iff_isSome_getElem?, hvalue])

end Machine

/-- **What a run has written can be written again.** Every name and every key stands in the source,
and only what follows the grammar was read there. -/
theorem run_isSpellable (source : String) (limits : Limits) :
    (((compile source).machine limits).run (compile source).code).machine.IsSpellable where
  registers r hr := by
    obtain ⟨i, hi, a, ha, hdest⟩ := (compile source).run_registers limits hr
    exact Action.isGrammatical_dest (compile_actions hi ha).isGrammatical hdest
  memory l hl := by
    obtain ⟨i, hi, a, ha, cell, hdest, hreaches⟩ := (compile source).run_memory limits hl
    have hcell := Action.isGrammatical_dest (compile_actions hi ha).isGrammatical hdest
    exact Location.isGrammatical_of_reaches hcell hreaches

/-- **Reloading.** The lines of the state at the end of a run compile without diagnostics to one
instruction per line. With a budget for these lines they run without errors on a fresh machine and
end with the same two snapshots. -/
theorem state_reloads (source : String) (limits : Limits) :
    let program := compile source
    let final := ((program.machine limits).run program.code).machine
    let lines := final.stateLines
    let reload := compile ("\n".intercalate lines)
    reload.diagnostics = [] ∧
    reload.code.map (fun i => (i.line, i.text)) = (lines.zipIdx 1).map (fun l => (l.2, l.1)) ∧
    ∀ limits' : Limits, lines.length ≤ limits'.maxSteps →
      let run := (reload.machine limits').run reload.code
      run.halted = false ∧ run.machine.errors = #[] ∧
      run.machine.registers.snapshot = final.registers.snapshot ∧
      run.machine.memory.snapshot = final.memory.snapshot := by
  intro program final lines reload
  have hlines : lines = final.moves.map Move.line := final.stateLines_eq
  have hreload : reload =
      ⟨(final.moves.zipIdx 1).map fun l => l.1.instruction l.2, ∅, [], []⟩ := by
    have hcompile := compile_moves (run_isSpellable source limits).moves
    rwa [← hlines] at hcompile
  have hmachine : ∀ limits', reload.machine limits' = { limits := limits' } := by
    intro limits'
    rw [hreload]
    rfl
  refine ⟨by rw [hreload], ?_, fun limits' hbudget => ?_⟩
  · rw [hreload, hlines, List.zipIdx_map, List.map_map, List.map_map]
    rfl
  · rw [hlines, List.length_map] at hbudget
    obtain ⟨steps, journal, trace, hrun⟩ := final.run_moves_self hbudget 1
    rw [hmachine, hreload, hrun]
    exact ⟨rfl, rfl, rfl, rfl⟩

/-- The least index by a register, indices and keys that look alike, an error, and a loop that takes
the rest of the budget. -/
def extremeSource : String :=
  "mov i, -9223372036854775808\nmov a[i], 5; mov a\x7b-5\x7d, 7; mov a[-5], -1\n" ++
    "mov then\x7b007\x7d, 9223372036854775807; div i, 0\nloop while i add n, 1"

/-- The budget ends the run after an error; its state is reloaded all the same. -/
theorem state_reloads_extreme :
    let program := compile extremeSource
    let final := ((program.machine ⟨10, 256⟩).run program.code).machine
    let lines := final.stateLines
    let reload := compile ("\n".intercalate lines)
    let again := (reload.machine ⟨6, 0⟩).run reload.code
    final.errors.toList.map (·.cause) = [.divisionByZero, .budgetExhausted 10] ∧
    lines = ["mov i, -9223372036854775808", "mov n, 3", "mov a[-9223372036854775808], 5",
      "mov a[-5], -1", "mov a\x7b-5\x7d, 7", "mov then\x7b007\x7d, 9223372036854775807"] ∧
    reload.diagnostics = [] ∧ again.halted = false ∧ again.machine.errors = #[] ∧
    again.machine.registers.snapshot = final.registers.snapshot ∧
    again.machine.memory.snapshot = final.memory.snapshot := by
  have hrun :
      let program := compile extremeSource
      let final := ((program.machine ⟨10, 256⟩).run program.code).machine
      final.errors.toList.map (·.cause) = [.divisionByZero, .budgetExhausted 10] ∧
      final.stateLines = ["mov i, -9223372036854775808", "mov n, 3",
        "mov a[-9223372036854775808], 5", "mov a[-5], -1", "mov a\x7b-5\x7d, 7",
        "mov then\x7b007\x7d, 9223372036854775807"] := by
    decide +kernel
  -- the rest holds whatever the source is, and need not be evaluated
  generalize extremeSource = source at hrun ⊢
  obtain ⟨herrors, hlines⟩ := hrun
  obtain ⟨hdiagnostics, -, hagain⟩ := state_reloads source ⟨10, 256⟩
  refine ⟨herrors, hlines, hdiagnostics, hagain ⟨6, 0⟩ ?_⟩
  rw [hlines]
  decide

end LineAsm
