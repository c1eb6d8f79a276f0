import LineAsm.Proofs.Blocks
import LineAsm.Proofs.Footprint

/-!
# Loose ends of a source

The suggester reads a source statement by statement and knows nothing of blocks, calls and steps.
What it finds is nevertheless enough: a run executes nothing that is not written in a statement of
the source, so a register that a run has written is one that the suggester has seen written, and a
function that a run has missed is one that it has seen called.

Results:
* `Writes source a`: the actions that are written in a source.
* `compile_actions`, `compile_function`: all that is compiled comes from statements of the source,
  and a function has a declaration there.
* `mem_allSuggestions_declare`, `mem_allSuggestions_print`: what is suggested.
* `suggestions_cover_runs`: the suggestions and a run of the source.
-/
namespace LineAsm

/-! ## What is written in a source -/

/-- The action is written in a statement of the source, at any level of nesting. -/
def Writes (source : String) (a : Action) : Prop :=
  ∃ s ∈ statements source, ∃ statement, Statement.decode s.2 = some statement ∧
    a ∈ statement.actions

/-- A statement of the source declares a function of the name, validly or not. -/
def Declares (source name : String) : Prop :=
  ∃ s ∈ statements source, functionDeclaration? s.2 = some name

/-- A statement of the source prints the register by itself. -/
def Prints (source register : String) : Prop :=
  ∃ items, Writes source (.print items) ∧ .value (.place (.register register)) ∈ items

theorem Bracketed.mem_of_loose {l : List (Nat × String)} {parts : List Part}
    (h : Bracketed l parts) {s : Nat × String} (hs : .loose s ∈ parts) : s ∈ l := by
  induction h with
  | nil => cases hs
  | loose _ _ ih =>
    rcases List.mem_cons.1 hs with heq | hs
    · cases heq
      exact List.mem_cons_self
    · exact List.mem_cons_of_mem _ (ih hs)
  | closed _ _ _ _ ih =>
    rcases List.mem_cons.1 hs with heq | hs
    · cases heq
    · simp [ih hs]
  | unclosed => simp at hs

theorem Bracketed.of_closed {l : List (Nat × String)} {parts : List Part} (h : Bracketed l parts)
    {name : String} {body : List (Nat × String)} (hb : .closed name body ∈ parts) :
    body ⊆ l ∧ ∃ head ∈ l, functionDeclaration? head.2 = some name := by
  induction h with
  | nil => cases hb
  | loose _ _ ih =>
    rcases List.mem_cons.1 hb with heq | hb
    · cases heq
    · obtain ⟨hbody, head, hhead, hname⟩ := ih hb
      exact ⟨List.subset_cons_of_subset _ hbody, head, List.mem_cons_of_mem _ hhead, hname⟩
  | closed isHead _ _ _ ih =>
    rcases List.mem_cons.1 hb with heq | hb
    · cases heq
      exact ⟨fun s hs => by simp [hs], _, List.mem_cons_self, isHead⟩
    · obtain ⟨hbody, head, hhead, hname⟩ := ih hb
      exact ⟨fun s hs => by simp [hbody hs], head, by simp [hhead], hname⟩
  | unclosed => simp at hb

/-- A function has a declaration in the source, and its body is made of statements of it. -/
theorem compile_function {source name : String} {body : List Instruction}
    (h : (compile source).functions[name]? = some body) :
    Declares source name ∧ ∀ i ∈ body, ∃ s ∈ statements source, instruction? s = some i := by
  obtain ⟨parts, hparts⟩ := exists_bracketed (statements source)
  rw [(compile_eq source).2, (hparts.builder rfl).2, getElem?_foldl_define] at h
  split at h
  · obtain ⟨block, hlast, rfl⟩ := Option.map_eq_some_iff.1 h
    obtain ⟨part, hpart, hbody⟩ := List.mem_filterMap.1 (List.mem_of_getLast? hlast)
    cases part with
    | loose | unclosed => cases hbody
    | closed name' body' =>
      simp only [Part.body?, Option.ite_none_right_eq_some, Option.some.injEq] at hbody
      obtain ⟨rfl, rfl⟩ := hbody
      obtain ⟨hsub, hhead⟩ := hparts.of_closed hpart
      refine ⟨hhead, fun i hi => ?_⟩
      obtain ⟨s, hs, hsi⟩ := List.mem_filterMap.1 hi
      exact ⟨s, hsub hs, hsi⟩
  · cases h

/-- Every instruction of a program stands for a statement of the source. -/
theorem compile_instruction {source : String} {i : Instruction}
    (h : i ∈ (compile source).instructions) : ∃ s ∈ statements source, instruction? s = some i := by
  rcases List.mem_append.1 h with hi | hi
  · obtain ⟨parts, hparts⟩ := exists_bracketed (statements source)
    rw [(compile_eq source).1, (hparts.builder rfl).1] at hi
    have hloose : i ∈ (parts.flatMap Part.outside).filterMap instruction? := by simpa using hi
    obtain ⟨s, hs, hsi⟩ := List.mem_filterMap.1 hloose
    obtain ⟨part, hpart, hs⟩ := List.mem_flatMap.1 hs
    cases part with
    | closed | unclosed => cases hs
    | loose s' =>
      obtain rfl := List.mem_singleton.1 hs
      exact ⟨s, hparts.mem_of_loose hpart, hsi⟩
  · obtain ⟨⟨name, body⟩, hbody, hi⟩ := List.mem_flatMap.1 hi
    exact (compile_function (Std.ExtTreeMap.mem_toList_iff_getElem?_eq_some.1 hbody)).2 i hi

/-- Every action of a program is written in the source. -/
theorem compile_actions {source : String} {i : Instruction}
    (hi : i ∈ (compile source).instructions) {a : Action} (ha : a ∈ i.statement.actions) :
    Writes source a := by
  obtain ⟨s, hs, hsi⟩ := compile_instruction hi
  obtain ⟨statement, hdecode, rfl⟩ := Option.map_eq_some_iff.1 hsi
  exact ⟨s, hs, statement, hdecode, ha⟩

/-! ## What the suggester has seen -/

namespace Mentions

theorem mem_written_ofAction {a : Action} {r : String} :
    r ∈ (ofAction a).written ↔ a.dest? = some (.register r) := by
  cases a with
  | mov dest | pop dest => cases dest <;> simp [ofAction, Action.dest?, eq_comm]
  | arith | call | print | push | fault | idle => simp [ofAction, Action.dest?, eq_comm]

theorem mem_called_ofAction {a : Action} {f : String} :
    f ∈ (ofAction a).called ↔ a = .call f := by
  cases a with
  | mov dest | pop dest => cases dest <;> simp [ofAction]
  | arith | call | print | push | fault | idle => simp [ofAction, eq_comm]

theorem mem_printed_ofAction {a : Action} {r : String} :
    r ∈ (ofAction a).printed ↔
      ∃ items, a = .print items ∧ .value (.place (.register r)) ∈ items := by
  have hitem : ∀ item, printedRegister? item = some r ↔ item = .value (.place (.register r)) := by
    intro item
    unfold printedRegister?
    split <;> simp_all
  cases a with
  | mov dest | pop dest => cases dest <;> simp [ofAction]
  | arith | call | print | push | fault | idle => simp [ofAction, List.mem_filterMap, hitem]

/-- A statement has one action, inside all its headers. -/
theorem ofStatement_eq (s : Statement) : ∃ a, s.actions = [a] ∧ ofStatement s = ofAction a := by
  induction s with
  | simple text a => exact ⟨a, rfl, rfl⟩
  | block text header body ih => exact ih

/-- The mentions of a source are those of its statements. -/
theorem ofSource_eq (source : String) :
    ofSource source =
      ⟨(statements source).flatMap fun s => (ofText s.2).written,
       (statements source).flatMap fun s => (ofText s.2).printed,
       (statements source).flatMap fun s => (ofText s.2).called,
       (statements source).flatMap fun s => (ofText s.2).declared⟩ := by
  unfold ofSource
  induction statements source with
  | nil => rfl
  | cons s rest ih =>
    rw [List.foldr_cons, ih]
    simp [append]

variable {source : String}

/-- A mention that only actions make is made by an action of the source. -/
theorem mem_flatMap_ofText (field : Mentions → List String) (hnone : field {} = [])
    (hdeclared : ∀ name, field { declared := [name] } = []) {n : String} :
    n ∈ (statements source).flatMap (fun s => field (ofText s.2)) ↔
      ∃ a, Writes source a ∧ n ∈ field (ofAction a) := by
  rw [List.mem_flatMap]
  constructor
  · rintro ⟨s, hs, hn⟩
    unfold ofText at hn
    split at hn
    · simp [hdeclared] at hn
    · split at hn
      · rename_i statement hdecode
        obtain ⟨a, hactions, heq⟩ := ofStatement_eq statement
        exact ⟨a, ⟨s, hs, statement, hdecode, by simp [hactions]⟩, heq ▸ hn⟩
      · simp [hnone] at hn
  · rintro ⟨a, ⟨s, hs, statement, hdecode, ha⟩, hn⟩
    obtain ⟨a', hactions, heq⟩ := ofStatement_eq statement
    rw [hactions, List.mem_singleton] at ha
    refine ⟨s, hs, ?_⟩
    unfold ofText
    simpa [functionDeclaration?_of_decode hdecode, hdecode, heq, ← ha] using hn

theorem mem_written {r : String} :
    r ∈ (ofSource source).written ↔ ∃ a, Writes source a ∧ a.dest? = some (.register r) := by
  rw [ofSource_eq]
  simp only [mem_flatMap_ofText written rfl fun _ => rfl, mem_written_ofAction]

theorem mem_called {f : String} : f ∈ (ofSource source).called ↔ Writes source (.call f) := by
  rw [ofSource_eq]
  simp only [mem_flatMap_ofText called rfl fun _ => rfl, mem_called_ofAction, exists_eq_right]

theorem mem_printed {r : String} : r ∈ (ofSource source).printed ↔ Prints source r := by
  rw [ofSource_eq]
  simp only [mem_flatMap_ofText printed rfl fun _ => rfl, mem_printed_ofAction, Prints]
  constructor
  · rintro ⟨_, ha, items, rfl, hr⟩
    exact ⟨items, ha, hr⟩
  · rintro ⟨items, ha, hr⟩
    exact ⟨_, ha, items, rfl, hr⟩

theorem mem_declared {name : String} :
    name ∈ (ofSource source).declared ↔ Declares source name := by
  have hstatement : ∀ s : Statement, (ofStatement s).declared = [] := by
    intro s
    obtain ⟨a, -, heq⟩ := ofStatement_eq s
    rw [heq]
    cases a with
    | mov dest | pop dest => cases dest <;> rfl
    | arith | call | print | push | fault | idle => rfl
  have htext : ∀ text, name ∈ (ofText text).declared ↔ functionDeclaration? text = some name := by
    intro text
    unfold ofText
    cases functionDeclaration? text with
    | some name' => simp [eq_comm]
    | none => cases Statement.decode text <;> simp [hstatement]
  rw [ofSource_eq, List.mem_flatMap]
  simp only [htext, Declares]

end Mentions

/-! ## What is suggested -/

theorem declare_ne_print (n r : String) : "declare function " ++ n ≠ "print " ++ r := by
  intro h
  have hlist := congrArg String.toList h
  simp [String.toList_append] at hlist

theorem mem_allSuggestions_declare {source n : String} :
    "declare function " ++ n ∈ allSuggestions source ↔
      Writes source (.call n) ∧ ¬ Declares source n := by
  unfold allSuggestions
  simp [(declare_ne_print _ _).symm, Mentions.mem_called, Mentions.mem_declared]

theorem mem_allSuggestions_print {source r : String} :
    "print " ++ r ∈ allSuggestions source ↔
      (∃ a, Writes source a ∧ a.dest? = some (.register r)) ∧ ¬ Prints source r := by
  unfold allSuggestions
  simp [declare_ne_print, Mentions.mem_written, Mentions.mem_printed]

theorem suggest_of_le {source : String} {cap : Nat} (h : (allSuggestions source).length ≤ cap) :
    suggest cap source = allSuggestions source := List.take_of_length_le h

/-! ## Runs -/

/-- A run writes nothing but what the actions of the program write. -/
theorem Program.run_spares (p : Program) (limits : Limits) :
    ({ limits } : Machine).Spares (fun a => ∃ i ∈ p.instructions, a ∈ i.statement.actions)
      ((p.machine limits).run p.code).machine := by
  have hrun := Machine.run_relates (Machine.Spares.respected _) (p.machine_closed limits)
    fun i hi a ha => ⟨i, List.mem_append_left _ hi, ha⟩
  obtain ⟨functions, hload⟩ := Machine.load_eq { limits } p
  rw [Program.machine, hload] at hrun ⊢
  exact { hrun with }

/-- A register that a run has written is the destination of an action of the program. -/
theorem Program.run_registers (p : Program) (limits : Limits) {r : String}
    (h : r ∈ ((p.machine limits).run p.code).machine.registers) :
    ∃ i ∈ p.instructions, ∃ a ∈ i.statement.actions, a.dest? = some (.register r) := by
  by_contra hno
  have hsame := (p.run_spares limits).registers r fun a ⟨i, hi, ha⟩ hdest =>
    hno ⟨i, hi, a, ha, hdest⟩
  simp [Std.ExtTreeMap.mem_iff_isSome_getElem?, hsame] at h

/-- A cell that a run has written is one that the destination of an action can mean. -/
theorem Program.run_memory (p : Program) (limits : Limits) {l : Location}
    (h : l ∈ ((p.machine limits).run p.code).machine.memory) :
    ∃ i ∈ p.instructions, ∃ a ∈ i.statement.actions, ∃ cell,
      a.dest? = some (.cell cell) ∧ cell.Reaches l := by
  by_contra hno
  have hsame := (p.run_spares limits).cells l fun a cell ⟨i, hi, ha⟩ hdest hreaches =>
    hno ⟨i, hi, a, ha, cell, hdest, hreaches⟩
  simp [Std.ExtTreeMap.mem_iff_isSome_getElem?, hsame] at h

/-- A function that a run has missed is called by an action of the program. -/
theorem Program.run_undefined (p : Program) (limits : Limits) {e : ExecError}
    (he : e ∈ ((p.machine limits).run p.code).machine.errors.toList) {n : String}
    (hn : e.cause.innermost = .undefinedFunction n) :
    ∃ i ∈ p.instructions, .call n ∈ i.statement.actions := by
  rcases (run_explained p limits e he).raised with ⟨limit, hlimit⟩ | ⟨i, hi, -, a, ha, hraises⟩
  · cases hn.symm.trans hlimit
  · rw [hn] at hraises
    cases hraises
    exact ⟨i, hi, ha⟩

/-- **Nothing is missed.** Whatever the limits, a register that a run of the source has written is
printed somewhere in the source, or it is suggested to print it, unless the suggestions are cut off.
In the same way a function that the run has missed is declared somewhere, or it is suggested to
declare it. A function that the program has is never suggested. -/
theorem suggestions_cover_runs (source : String) (limits : Limits) :
    let program := compile source
    let final := ((program.machine limits).run program.code).machine
    (∀ cap, (allSuggestions source).length ≤ cap →
      (∀ r ∈ final.registers, Prints source r ∨ "print " ++ r ∈ suggest cap source) ∧
      ∀ e ∈ final.errors.toList, ∀ n, e.cause.innermost = .undefinedFunction n →
        Declares source n ∨ "declare function " ++ n ∈ suggest cap source) ∧
    ∀ cap n, "declare function " ++ n ∈ suggest cap source → n ∉ program.functions := by
  intro program final
  refine ⟨fun cap hcap => ⟨fun r hr => ?_, fun e he n hn => ?_⟩, fun cap n hn hdefined => ?_⟩
  · obtain ⟨i, hi, a, ha, hdest⟩ := program.run_registers limits hr
    rw [suggest_of_le hcap, mem_allSuggestions_print, or_iff_not_imp_left]
    exact fun hprints => ⟨⟨a, compile_actions hi ha, hdest⟩, hprints⟩
  · obtain ⟨i, hi, hcall⟩ := program.run_undefined limits he hn
    rw [suggest_of_le hcap, mem_allSuggestions_declare, or_iff_not_imp_left]
    exact fun hdeclares => ⟨compile_actions hi hcall, hdeclares⟩
  · obtain ⟨-, hundeclared⟩ := mem_allSuggestions_declare.1 (List.mem_of_mem_take hn)
    exact hundeclared (compile_function (Std.ExtTreeMap.getElem?_eq_some_getElem hdefined)).1

/-- A block with an invalid name, a function that calls itself, and a block that is not closed. -/
def looseSource : String :=
  "declare function 2\nmov h, 1\nend\ndeclare function f\nadd n, 1\ncall f\nend\n" ++
    "call u; call v\nmov s, 4; print s\ncall f\ndeclare function u\nmov i, 1"

/-- The budget ends the run. Of the registers it has written one is printed, and of the functions it
has missed one is declared; for the others there are suggestions. -/
theorem suggestions_cover_runs_loose :
    let program := compile looseSource
    let final := ((program.machine ⟨8, 256⟩).run program.code).machine
    final.registers.keys = ["n", "s"] ∧
    final.errors.toList = [⟨.undefinedFunction "u", 8, []⟩, ⟨.undefinedFunction "v", 8, []⟩,
      ⟨.budgetExhausted 8, 6, [⟨"f", 6⟩, ⟨"f", 10⟩]⟩] ∧
    suggest 4 looseSource = ["declare function v", "print h", "print n", "print i"] ∧
    Prints looseSource "s" ∧ Declares looseSource "u" ∧ "v" ∉ program.functions := by
  intro program final
  have hcovers := suggestions_cover_runs looseSource ⟨8, 256⟩
  extract_lets at hcovers
  obtain ⟨hcover, hfresh⟩ := hcovers
  have hrun : final.registers.keys = ["n", "s"] ∧
      final.errors.toList = [⟨.undefinedFunction "u", 8, []⟩, ⟨.undefinedFunction "v", 8, []⟩,
        ⟨.budgetExhausted 8, 6, [⟨"f", 6⟩, ⟨"f", 10⟩]⟩] := by decide +kernel
  have hall : allSuggestions looseSource =
      ["declare function v", "print h", "print n", "print i"] := by decide +kernel
  have hcap : (allSuggestions looseSource).length ≤ 4 := by
    rw [hall]
    decide
  have hsuggest := (suggest_of_le hcap).trans hall
  obtain ⟨hregisters, herrors⟩ := hcover 4 hcap
  rw [hsuggest] at hregisters herrors
  refine ⟨hrun.1, hrun.2, hsuggest, ?_, ?_, hfresh 4 "v" (by rw [hsuggest]; decide)⟩
  · have hs : "s" ∈ final.registers := by
      rw [← Std.ExtTreeMap.mem_keys, hrun.1]
      decide
    exact (hregisters "s" hs).resolve_right (by decide)
  · have hu : (⟨.undefinedFunction "u", 8, []⟩ : ExecError) ∈ final.errors.toList := by
      rw [hrun.2]
      exact List.mem_cons_self
    exact (herrors _ hu "u" rfl).resolve_right (by decide)

end LineAsm
