import LineAsm.Proofs.Source
import Mathlib.Data.List.Induction

/-!
# Function blocks

The compiler carries an open block from statement to statement. What it makes of a source can be
said without that state: read the statements from the left, where a function declaration outside a
block opens one and the first `end` after it closes it (`Bracketed`).

Results:
* `Bracketed.unique`, `exists_bracketed`: every list of statements is read in one way.
* `compile_eq`: the compiler takes in the statements of the source, one after another.
* `Bracketed.builder`: the builder's code and functions after a list of statements, by its parts.
* `compile_reads_blocks`: the main code is the instructions outside the blocks, and a function is
  the instructions of the last closed block of its name.
-/
namespace LineAsm

/-! ## Executable statements -/

/-- Assembly, conditional and print statements are executed. -/
def Shape.isExecutable : Shape → Bool
  | .assembly .. | .conditional .. | .print _ => true
  | .declaration | .unrecognized => false

/-- The instruction that a numbered statement stands for, if it is executable. -/
def instruction? (s : Nat × String) : Option Instruction :=
  (Statement.decode s.2).map fun statement => ⟨s.1, statement⟩

theorem instruction?_isSome (s : Nat × String) :
    (instruction? s).isSome = (Shape.of s.2.toList).isExecutable := by
  unfold instruction? Statement.decode
  cases Shape.of s.2.toList <;> rfl

theorem instruction?_of_functionDeclaration {s : Nat × String} {name : String}
    (h : functionDeclaration? s.2 = some name) : instruction? s = none := by
  obtain ⟨afterDeclare, hdeclare, -⟩ := Option.bind_eq_some_iff.1 h
  have htext := List.isPrefixOf?_eq_some_iff_append_eq.1 hdeclare
  have hshape : Shape.of s.2.toList = .declaration := by
    unfold Shape.of
    rw [if_pos]
    rw [← htext, List.isPrefixOf_iff_prefix]
    exact List.prefix_append _ _
  unfold instruction? Statement.decode
  rw [hshape]
  rfl

/-- A statement that is executed declares no function. -/
theorem functionDeclaration?_of_decode {text : String} {s : Statement}
    (h : Statement.decode text = some s) : functionDeclaration? text = none := by
  cases hhead : functionDeclaration? text with
  | none => rfl
  | some name =>
    have hnone : instruction? (0, text) = none := instruction?_of_functionDeclaration hhead
    simp [instruction?, h] at hnone

theorem instruction?_end (n : Nat) : instruction? (n, "end") = none := by
  have hdecode : Statement.decode "end" = none := by decide
  unfold instruction?
  rw [hdecode]
  rfl

/-! ## Reading blocks -/

/-- A part of a source: a statement outside all blocks, the body of a block that is closed, or of
one that the source leaves open. -/
inductive Part where
  | loose (s : Nat × String)
  | closed (name : String) (body : List (Nat × String))
  | unclosed (name : String) (body : List (Nat × String))

/-- The parts of a list of statements. Inside a block only the next `end` counts. -/
inductive Bracketed : List (Nat × String) → List Part → Prop where
  | nil : Bracketed [] []
  | loose {s : Nat × String} {rest : List (Nat × String)} {parts : List Part}
      (noHead : functionDeclaration? s.2 = none) (after : Bracketed rest parts) :
      Bracketed (s :: rest) (.loose s :: parts)
  | closed {head foot : Nat × String} {name : String} {body rest : List (Nat × String)}
      {parts : List Part} (isHead : functionDeclaration? head.2 = some name)
      (noFoot : ∀ s ∈ body, s.2 ≠ "end") (isFoot : foot.2 = "end")
      (after : Bracketed rest parts) :
      Bracketed (head :: (body ++ foot :: rest)) (.closed name body :: parts)
  | unclosed {head : Nat × String} {name : String} {body : List (Nat × String)}
      (isHead : functionDeclaration? head.2 = some name) (noFoot : ∀ s ∈ body, s.2 ≠ "end") :
      Bracketed (head :: body) [.unclosed name body]

/-- The first `end` of a list is in one place. -/
theorem append_end_inj {body body' rest rest' : List (Nat × String)} {foot foot' : Nat × String}
    (noFoot : ∀ s ∈ body, s.2 ≠ "end") (noFoot' : ∀ s ∈ body', s.2 ≠ "end")
    (isFoot : foot.2 = "end") (isFoot' : foot'.2 = "end")
    (h : body ++ foot :: rest = body' ++ foot' :: rest') : body = body' ∧ rest = rest' := by
  induction body generalizing body' with
  | nil =>
    cases body' with
    | nil => exact ⟨rfl, (List.cons.inj h).2⟩
    | cons s body' =>
      have hs : foot = s := (List.cons.inj h).1
      exact absurd (hs ▸ isFoot) (noFoot' s List.mem_cons_self)
  | cons s body ih =>
    cases body' with
    | nil =>
      have hs : s = foot' := (List.cons.inj h).1
      exact absurd (hs ▸ isFoot') (noFoot s List.mem_cons_self)
    | cons s' body' =>
      obtain ⟨hs, htail⟩ := List.cons.inj h
      obtain ⟨hbody, hrest⟩ := ih (fun t ht => noFoot t (List.mem_cons_of_mem _ ht))
        (fun t ht => noFoot' t (List.mem_cons_of_mem _ ht)) htail
      exact ⟨by rw [hs, hbody], hrest⟩

theorem Bracketed.unique {l : List (Nat × String)} {parts parts' : List Part}
    (h : Bracketed l parts) (h' : Bracketed l parts') : parts = parts' := by
  induction h generalizing parts' with
  | nil => cases h'; rfl
  | loose noHead _ ih =>
    cases h' with
    | loose _ after' => rw [ih after']
    | closed isHead' | unclosed isHead' => rw [noHead] at isHead'; cases isHead'
  | @closed head foot name body rest parts isHead noFoot isFoot _ ih =>
    generalize hl : head :: (body ++ foot :: rest) = l at h'
    cases h' with
    | nil => cases hl
    | loose noHead' =>
      obtain ⟨rfl, -⟩ := List.cons.inj hl
      rw [isHead] at noHead'; cases noHead'
    | closed isHead' noFoot' isFoot' after' =>
      obtain ⟨rfl, htail⟩ := List.cons.inj hl
      obtain ⟨rfl, rfl⟩ := append_end_inj noFoot noFoot' isFoot isFoot' htail
      rw [isHead] at isHead'; cases isHead'
      rw [ih after']
    | unclosed isHead' noFoot' =>
      obtain ⟨rfl, rfl⟩ := List.cons.inj hl
      exact absurd isFoot (noFoot' foot (by simp))
  | @unclosed head name body isHead noFoot =>
    generalize hl : head :: body = l at h'
    cases h' with
    | nil => cases hl
    | loose noHead' =>
      obtain ⟨rfl, -⟩ := List.cons.inj hl
      rw [isHead] at noHead'; cases noHead'
    | @closed _ foot' _ _ _ _ _ _ isFoot' =>
      obtain ⟨rfl, rfl⟩ := List.cons.inj hl
      exact absurd isFoot' (noFoot foot' (by simp))
    | unclosed isHead' =>
      obtain ⟨rfl, rfl⟩ := List.cons.inj hl
      rw [isHead] at isHead'; cases isHead'
      rfl

theorem exists_bracketed (l : List (Nat × String)) : ∃ parts, Bracketed l parts := by
  -- a closed block is read in one go, so the induction is on the length
  induction hn : l.length using Nat.strongRecOn generalizing l with
  | ind n ih =>
    cases l with
    | nil => exact ⟨[], .nil⟩
    | cons s rest =>
      rw [List.length_cons] at hn
      cases hname : functionDeclaration? s.2 with
      | none =>
        obtain ⟨parts, after⟩ := ih rest.length (by omega) rest rfl
        exact ⟨_, .loose hname after⟩
      | some name =>
        cases hfoot : rest.find? (·.2 == "end") with
        | none => exact ⟨_, .unclosed hname (by simpa using hfoot)⟩
        | some foot =>
          obtain ⟨isFoot, body, tail, rfl, noFoot⟩ := List.find?_eq_some_iff_append.1 hfoot
          rw [List.length_append, List.length_cons] at hn
          obtain ⟨parts, after⟩ := ih tail.length (by omega) tail rfl
          exact ⟨_, .closed hname (by simpa using noFoot) (by simpa using isFoot) after⟩

/-! ## The builder, statement by statement

Notes apart, a builder is its code, its functions and its block. -/

/-- The functions after a block has been closed: a block without a valid name defines none. -/
def defineFunction (functions : Functions) (name : String) (body : List Instruction) : Functions :=
  if isFunctionName name.toList then functions.insert name body else functions

namespace Builder

/-- The builder without its declarations and diagnostics. -/
def core (b : Builder) : Array Instruction × Functions × Option Block :=
  (b.code, b.functions, b.block)

theorem core_eq_iff {b : Builder} {code : Array Instruction} {functions : Functions}
    {block : Option Block} : b.core = (code, functions, block) ↔
      b.code = code ∧ b.functions = functions ∧ b.block = block := by
  simp [core]

/-- Adds the instruction of a statement that neither opens nor closes a block, if it has one. -/
theorem core_statement_plain {b : Builder} {s : Nat × String}
    (noHead : functionDeclaration? s.2 = none) (noFoot : s.2 ≠ "end") :
    (b.statement s.1 s.2).core = ((instruction? s).elim b b.emit).core := by
  unfold statement Role.of instruction?
  rw [noHead]
  simp only [if_neg noFoot]
  cases hshape : Shape.of s.2.toList with
  | declaration => simp [Statement.decode, hshape, Shape.decode, declare, core]
  | _ => cases Statement.decode s.2 <;> rfl

theorem statement_head {b : Builder} {s : Nat × String} {name : String}
    (isHead : functionDeclaration? s.2 = some name) :
    b.statement s.1 s.2 = b.openBlock s.1 name := by
  unfold statement Role.of
  rw [isHead]

theorem statement_foot {b : Builder} {s : Nat × String} (isFoot : s.2 = "end") :
    b.statement s.1 s.2 = b.closeBlock s.1 := by
  have hrole : Role.of "end" = .closes := by rfl
  unfold statement
  rw [isFoot, hrole]

theorem core_emit (b : Builder) (i : Instruction) :
    (b.emit i).core =
      match b.block with
      | none => (b.code.push i, b.functions, none)
      | some block => (b.code, b.functions, some { block with body := block.body.push i }) := by
  unfold emit core
  cases b.block <;> rfl

/-- Outside a block, a statement that opens none adds its instruction to the main code. -/
theorem core_statement_loose {b : Builder} {s : Nat × String} (hb : b.block = none)
    (noHead : functionDeclaration? s.2 = none) :
    (b.statement s.1 s.2).core = (b.code ++ (instruction? s).toList, b.functions, none) := by
  by_cases isFoot : s.2 = "end"
  · have hnone : instruction? s = none := by
      rw [← instruction?_end s.1, ← isFoot]
    rw [statement_foot isFoot, hnone]
    simp [closeBlock, hb, core, report]
  · rw [core_statement_plain noHead isFoot]
    cases instruction? s with
    | none => simp [core, hb]
    | some i => simp [core_emit, hb]

theorem core_statement_opens {b : Builder} {s : Nat × String} {name : String}
    (hb : b.block = none) (isHead : functionDeclaration? s.2 = some name) :
    (b.statement s.1 s.2).core = (b.code, b.functions, some ⟨name, s.1, #[]⟩) := by
  rw [statement_head isHead]
  unfold openBlock core
  rw [hb]
  dsimp only
  split <;> rfl

/-- Inside a block, every statement but `end` adds its instruction to the block. -/
theorem core_statement_inside {b : Builder} {block : Block} {s : Nat × String}
    (hb : b.block = some block) (noFoot : s.2 ≠ "end") :
    (b.statement s.1 s.2).core = (b.code, b.functions,
      some { block with body := block.body ++ (instruction? s).toList }) := by
  cases hhead : functionDeclaration? s.2 with
  | some name =>
    rw [statement_head hhead, instruction?_of_functionDeclaration hhead]
    simp [openBlock, hb, core, report]
  | none =>
    rw [core_statement_plain hhead noFoot]
    cases instruction? s with
    | none => simp [core, hb]
    | some i => simp [core_emit, hb]

theorem core_statement_closes {b : Builder} {block : Block} {s : Nat × String}
    (hb : b.block = some block) (isFoot : s.2 = "end") :
    (b.statement s.1 s.2).core =
      (b.code, defineFunction b.functions block.name block.body.toList, none) := by
  rw [statement_foot isFoot]
  unfold closeBlock defineFunction core
  rw [hb]
  dsimp only
  split <;> rfl

/-! ### Lines and lists of statements -/

/-- Takes in statements one after another. -/
def statements (b : Builder) (l : List (Nat × String)) : Builder :=
  l.foldl (fun b s => b.statement s.1 s.2) b

@[simp] theorem statements_nil (b : Builder) : b.statements [] = b := rfl

@[simp] theorem statements_cons (b : Builder) (s : Nat × String) (l : List (Nat × String)) :
    b.statements (s :: l) = (b.statement s.1 s.2).statements l := rfl

@[simp] theorem statements_append (b : Builder) (l l' : List (Nat × String)) :
    b.statements (l ++ l') = (b.statements l).statements l' := List.foldl_append

/-- What a statement does to the core is decided by the core. -/
theorem core_statement_congr {b b' : Builder} (h : b.core = b'.core) (s : Nat × String) :
    (b.statement s.1 s.2).core = (b'.statement s.1 s.2).core := by
  obtain ⟨hcode, hfunctions, hblock⟩ := core_eq_iff.1 h
  cases hb' : b'.block with
  | none =>
    have hb := hblock.trans hb'
    cases hhead : functionDeclaration? s.2 with
    | none => rw [core_statement_loose hb hhead, core_statement_loose hb' hhead, hcode, hfunctions]
    | some name =>
      rw [core_statement_opens hb hhead, core_statement_opens hb' hhead, hcode, hfunctions]
  | some block =>
    have hb := hblock.trans hb'
    by_cases hfoot : s.2 = "end"
    · rw [core_statement_closes hb hfoot, core_statement_closes hb' hfoot, hcode, hfunctions]
    · rw [core_statement_inside hb hfoot, core_statement_inside hb' hfoot, hcode, hfunctions]

theorem core_statements_congr {b b' : Builder} (h : b.core = b'.core) (l : List (Nat × String)) :
    (b.statements l).core = (b'.statements l).core := by
  induction l generalizing b b' with
  | nil => exact h
  | cons s l ih => exact ih (core_statement_congr h s)

theorem core_line (b : Builder) (number : Nat) (texts : List String) :
    (b.line number texts).core = (b.statements (texts.map fun text => (number, text))).core := by
  have hfold : b.statements (texts.map fun text => (number, text)) =
      texts.foldl (fun b text => b.statement number text) b := List.foldl_map
  unfold line
  rw [hfold]
  dsimp only
  split <;> rfl

theorem core_lines (b : Builder) (lines : List (Nat × List Char)) :
    (lines.foldl (fun b l => b.line l.1 (lineStatements l.2)) b).core =
      (b.statements
        (lines.flatMap fun l => (lineStatements l.2).map fun text => (l.1, text))).core := by
  induction lines generalizing b with
  | nil => rfl
  | cons l lines ih =>
    rw [List.foldl_cons, ih, List.flatMap_cons, statements_append]
    exact core_statements_congr (core_line b l.1 (lineStatements l.2)) _

end Builder

theorem compile_eq (source : String) :
    (compile source).code = (({} : Builder).statements (statements source)).code.toList ∧
      (compile source).functions = (({} : Builder).statements (statements source)).functions := by
  have hfinish : ∀ b : Builder,
      b.finish.code = b.core.1.toList ∧ b.finish.functions = b.core.2.1 := by
    intro b
    unfold Builder.finish
    cases b.block <;> exact ⟨rfl, rfl⟩
  unfold compile
  rw [(hfinish _).1, (hfinish _).2, Builder.core_lines, flatMap_codeLines]
  exact ⟨rfl, rfl⟩

/-! ## The builder, block by block -/

/-- Up to its `end`, a block takes the instructions of its statements. -/
theorem Builder.core_statements_inside {b : Builder} {block : Block} {l : List (Nat × String)}
    (hb : b.block = some block) (noFoot : ∀ s ∈ l, s.2 ≠ "end") :
    (b.statements l).core = (b.code, b.functions,
      some { block with body := block.body ++ l.filterMap instruction? }) := by
  induction l generalizing b block with
  | nil => simp [core, hb]
  | cons s l ih =>
    obtain ⟨hcode, hfunctions, hblock⟩ :=
      core_eq_iff.1 (core_statement_inside hb (noFoot s List.mem_cons_self))
    have hrest := ih hblock fun t ht => noFoot t (List.mem_cons_of_mem _ ht)
    rw [statements_cons, hrest, hcode, hfunctions]
    cases hi : instruction? s <;> simp [hi]

/-- The statements outside all blocks that a part holds. -/
def Part.outside : Part → List (Nat × String)
  | .loose s => [s]
  | .closed .. | .unclosed .. => []

/-- The functions after a part. -/
def Part.define (functions : Functions) : Part → Functions
  | .closed name body => defineFunction functions name (body.filterMap instruction?)
  | .loose _ | .unclosed .. => functions

/-- **Blocks.** What the builder makes of a list of statements, by the parts of the list. -/
theorem Bracketed.builder {l : List (Nat × String)} {parts : List Part} (h : Bracketed l parts)
    {b : Builder} (hb : b.block = none) :
    (b.statements l).code = b.code ++ (parts.flatMap Part.outside).filterMap instruction? ∧
      (b.statements l).functions = parts.foldl Part.define b.functions := by
  induction h generalizing b with
  | nil => simp
  | @loose s rest parts noHead _ ih =>
    obtain ⟨hcode, hfunctions, hblock⟩ :=
      Builder.core_eq_iff.1 (Builder.core_statement_loose hb noHead)
    obtain ⟨hcode', hfunctions'⟩ := ih hblock
    rw [Builder.statements_cons, hcode', hfunctions', hcode, hfunctions]
    cases hi : instruction? s <;> simp [Part.outside, Part.define, hi]
  | @closed head foot name body rest parts isHead noFoot isFoot _ ih =>
    obtain ⟨hcode₁, hfunctions₁, hblock₁⟩ :=
      Builder.core_eq_iff.1 (Builder.core_statement_opens hb isHead)
    obtain ⟨hcode₂, hfunctions₂, hblock₂⟩ :=
      Builder.core_eq_iff.1 (Builder.core_statements_inside hblock₁ noFoot)
    obtain ⟨hcode₃, hfunctions₃, hblock₃⟩ :=
      Builder.core_eq_iff.1 (Builder.core_statement_closes hblock₂ isFoot)
    obtain ⟨hcode, hfunctions⟩ := ih hblock₃
    rw [Builder.statements_cons, Builder.statements_append, Builder.statements_cons]
    constructor
    · rw [hcode, hcode₃, hcode₂, hcode₁]
      rfl
    · rw [hfunctions, hfunctions₃, hfunctions₂, hfunctions₁]
      simp [Part.define]
  | @unclosed head name body isHead noFoot =>
    obtain ⟨hcode₁, hfunctions₁, hblock₁⟩ :=
      Builder.core_eq_iff.1 (Builder.core_statement_opens hb isHead)
    obtain ⟨hcode₂, hfunctions₂, -⟩ :=
      Builder.core_eq_iff.1 (Builder.core_statements_inside hblock₁ noFoot)
    rw [Builder.statements_cons, hcode₂, hfunctions₂, hcode₁, hfunctions₁]
    simp [Part.outside, Part.define]

/-- The body of a part, if it is a closed block of the name. -/
def Part.body? (name : String) : Part → Option (List (Nat × String))
  | .closed name' body => if name' = name then some body else none
  | .loose _ | .unclosed .. => none

/-- The body of the last closed block of a name. -/
def lastBody? (name : String) (parts : List Part) : Option (List (Nat × String)) :=
  (parts.filterMap (Part.body? name)).getLast?

theorem lastBody?_concat (name : String) (parts : List Part) (p : Part) :
    lastBody? name (parts ++ [p]) = (p.body? name).or (lastBody? name parts) := by
  unfold lastBody?
  cases hp : p.body? name <;> simp [hp]

theorem getElem?_define (functions : Functions) (p : Part) (name : String) :
    (p.define functions)[name]? =
      if isFunctionName name.toList then
        ((p.body? name).map (·.filterMap instruction?)).or functions[name]?
      else functions[name]? := by
  cases p with
  | loose s | unclosed name' body => simp [Part.define, Part.body?]
  | closed name' body =>
    simp only [Part.define, Part.body?, defineFunction]
    by_cases hname : name' = name
    · subst hname
      split <;> simp
    · split <;> simp [hname, Std.ExtTreeMap.getElem?_insert]

theorem getElem?_foldl_define (parts : List Part) (name : String) :
    (parts.foldl Part.define ∅)[name]? =
      if isFunctionName name.toList then
        (lastBody? name parts).map (·.filterMap instruction?)
      else none := by
  induction parts using List.reverseRecOn with
  | nil => simp [lastBody?]
  | append_singleton parts p ih =>
    rw [List.foldl_append, List.foldl_cons, List.foldl_nil, getElem?_define, ih, lastBody?_concat]
    cases p.body? name <;> split <;> simp

/-- **Blocks of a source.** The statements of a source are read in exactly one way. The main code is
the instructions of the statements outside all blocks. A name is bound if it is valid and one of its
blocks is closed, and then to the instructions of the last such block. Nothing else is kept. The
statements with an instruction are those of an executable shape. -/
theorem compile_reads_blocks (source : String) :
    ∃ parts : List Part,
      (∀ parts', Bracketed (statements source) parts' ↔ parts' = parts) ∧
      (compile source).code = (parts.flatMap Part.outside).filterMap instruction? ∧
      (∀ name : String, (compile source).functions[name]? =
        if isFunctionName name.toList then
          (lastBody? name parts).map (·.filterMap instruction?)
        else none) ∧
      ∀ s ∈ statements source, (instruction? s).isSome = (Shape.of s.2.toList).isExecutable := by
  obtain ⟨parts, hparts⟩ := exists_bracketed (statements source)
  obtain ⟨hcode, hfunctions⟩ := hparts.builder (b := {}) rfl
  obtain ⟨hcompiled, hdefined⟩ := compile_eq source
  refine ⟨parts, fun parts' => ⟨fun h => h.unique hparts, fun h => h ▸ hparts⟩, ?_, ?_,
    fun s _ => instruction?_isSome s⟩
  · rw [hcompiled, hcode]
    simp
  · intro name
    rw [hdefined, hfunctions]
    exact getElem?_foldl_define parts name

end LineAsm
