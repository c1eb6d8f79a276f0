import LineAsm.Proofs.Blocks
import LineAsm.Proofs.Splitting

/-!
# Statements that are left out

A statement that the compiler does not recognise changes nothing but the diagnostic of its line. So
a source can be written without these statements, line by line, and the program stays the same.

Results:
* `Builder.statement_notes`: what a statement does depends on no diagnostic, and the diagnostics
  that it adds are not about unrecognised statements.
* `Builder.cleared_line`, `Builder.rejected_line`: what a line does to the other diagnostics and to
  those about unrecognised statements.
* `lineTexts_recognizedSource`: the source without its unrecognised statements has the recognised
  ones, on the same lines.
* `unrecognized_statements_are_inert`: what follows for whole programs.
-/
namespace LineAsm

open Text

/-! ## Recognised statements -/

/-- Function declarations, `end`, other declarations and executable statements are recognised. -/
def isRecognized (text : String) : Bool :=
  (functionDeclaration? text).isSome || text == "end" ||
    Shape.of text.toList == .declaration || (Shape.of text.toList).isExecutable

theorem isUnrecognized_role (text : String) :
    (Role.of text).isUnrecognized = !isRecognized text := by
  unfold Role.of isRecognized
  cases hhead : functionDeclaration? text with
  | some name => rfl
  | none =>
    by_cases hfoot : text = "end"
    · simp [hfoot, Role.isUnrecognized]
    · unfold Statement.decode
      cases hshape : Shape.of text.toList <;>
        simp [hfoot, Shape.decode, Shape.isExecutable, Role.isUnrecognized]

def Problem.isUnrecognized : Problem → Bool
  | .unrecognized _ => true
  | _ => false

/-! ## The builder and its diagnostics -/

namespace Builder

theorem statement_unrecognized {text : String} (h : isRecognized text = false) (b : Builder)
    (number : Nat) : b.statement number text = b := by
  have hrole : (Role.of text).isUnrecognized = true := by rw [isUnrecognized_role, h]; rfl
  unfold statement
  cases hr : Role.of text with
  | unrecognized => rfl
  | _ => rw [hr] at hrole; cases hrole

/-- A statement looks at no diagnostic, and those that it adds are about other problems. -/
theorem statement_notes (b : Builder) (number : Nat) (text : String) :
    ∃ added : Array Diagnostic, (∀ d ∈ added, d.problem.isUnrecognized = false) ∧
      ∀ notes, { b with diagnostics := notes }.statement number text =
        { b.statement number text with diagnostics := notes ++ added } := by
  unfold statement
  cases Role.of text with
  | opens name =>
    cases hblock : b.block with
    | some block =>
      refine ⟨#[⟨number, .nestedFunction name block.name⟩], by simp [Problem.isUnrecognized], ?_⟩
      intro notes
      simp [openBlock, hblock, report]
    | none =>
      by_cases hname : isFunctionName name.toList = true
      · exact ⟨#[], by simp, fun notes => by simp [openBlock, hblock, hname]⟩
      · refine ⟨#[⟨number, .invalidFunctionName name⟩], by simp [Problem.isUnrecognized], ?_⟩
        intro notes
        simp [openBlock, hblock, hname, report]
  | closes =>
    cases hblock : b.block with
    | none =>
      refine ⟨#[⟨number, .strayEnd⟩], by simp [Problem.isUnrecognized], ?_⟩
      intro notes
      simp [closeBlock, hblock, report]
    | some block =>
      by_cases hname : isFunctionName block.name.toList = true
      · exact ⟨#[], by simp, fun notes => by simp [closeBlock, hblock, hname]⟩
      · exact ⟨#[], by simp, fun notes => by simp [closeBlock, hblock, hname]⟩
  | declares => exact ⟨#[], by simp, fun notes => by simp [declare]⟩
  | executes statement =>
    cases hblock : b.block <;>
      exact ⟨#[], by simp, fun notes => by simp [emit, hblock]⟩
  | unrecognized => exact ⟨#[], by simp, fun notes => by simp⟩

/-- The builder without the diagnostics about unrecognised statements. -/
def cleared (b : Builder) : Builder :=
  { b with diagnostics := b.diagnostics.filter fun d => !d.problem.isUnrecognized }

/-- The diagnostics about unrecognised statements. -/
def rejected (b : Builder) : List Diagnostic :=
  b.diagnostics.toList.filter (·.problem.isUnrecognized)

theorem cleared_statement (b : Builder) (number : Nat) (text : String) :
    (b.statement number text).cleared = b.cleared.statement number text := by
  obtain ⟨added, hadded, h⟩ := b.statement_notes number text
  have hb : (b.statement number text).diagnostics = b.diagnostics ++ added :=
    congrArg Builder.diagnostics (h b.diagnostics)
  have hkept : added.filter (fun d => !d.problem.isUnrecognized) = added := by
    rw [Array.filter_eq_self]
    intro d hd
    simp [hadded d hd]
  calc (b.statement number text).cleared
    _ = { b.statement number text with diagnostics := b.cleared.diagnostics ++ added } := by
        simp only [cleared, hb, Array.filter_append Array.size_append, hkept]
    _ = b.cleared.statement number text := (h b.cleared.diagnostics).symm

theorem rejected_statement (b : Builder) (number : Nat) (text : String) :
    (b.statement number text).rejected = b.rejected := by
  obtain ⟨added, hadded, h⟩ := b.statement_notes number text
  have hb : (b.statement number text).diagnostics = b.diagnostics ++ added :=
    congrArg Builder.diagnostics (h b.diagnostics)
  have hnone : added.toList.filter (·.problem.isUnrecognized) = [] := by
    rw [List.filter_eq_nil_iff]
    intro d hd
    simp [hadded d (by simpa using hd)]
  unfold rejected
  rw [hb, Array.toList_append, List.filter_append, hnone, List.append_nil]

theorem cleared_texts (b : Builder) (number : Nat) (texts : List String) :
    (texts.foldl (fun b text => b.statement number text) b).cleared =
      (texts.filter isRecognized).foldl (fun b text => b.statement number text) b.cleared := by
  induction texts generalizing b with
  | nil => rfl
  | cons text texts ih =>
    rw [List.foldl_cons, ih, cleared_statement]
    by_cases hrec : isRecognized text = true
    · rw [List.filter_cons_of_pos hrec, List.foldl_cons]
    · rw [List.filter_cons_of_neg hrec, statement_unrecognized (by simpa using hrec)]

theorem rejected_texts (b : Builder) (number : Nat) (texts : List String) :
    (texts.foldl (fun b text => b.statement number text) b).rejected = b.rejected := by
  induction texts generalizing b with
  | nil => rfl
  | cons text texts ih => rw [List.foldl_cons, ih, rejected_statement]

theorem line_eq (b : Builder) (number : Nat) (texts : List String) :
    b.line number texts =
      let after := texts.foldl (fun b text => b.statement number text) b
      let unrecognized := texts.filter (!isRecognized ·)
      if unrecognized = [] then after else after.report number (.unrecognized unrecognized) := by
  unfold line
  simp only [isUnrecognized_role]
  split
  · rename_i hnone
    rw [if_pos hnone]
  · rename_i hsome
    rw [if_neg hsome]

/-- A line does to the cleared builder what its recognised statements do. -/
theorem cleared_line (b : Builder) (number : Nat) (texts : List String) :
    (b.line number texts).cleared = b.cleared.line number (texts.filter isRecognized) := by
  have hnone : (texts.filter isRecognized).filter (!isRecognized ·) = [] := by
    simp [List.filter_filter]
  rw [line_eq, line_eq, hnone, ← cleared_texts]
  dsimp only
  split
  · rfl
  · simp [cleared, report, Problem.isUnrecognized]

/-- A line adds one diagnostic about all its unrecognised statements, if it has any. -/
theorem rejected_line (b : Builder) (number : Nat) (texts : List String) :
    (b.line number texts).rejected = b.rejected ++
      let unrecognized := texts.filter (!isRecognized ·)
      if unrecognized = [] then [] else [⟨number, .unrecognized unrecognized⟩] := by
  rw [line_eq, ← rejected_texts b number texts]
  dsimp only
  split
  · rw [List.append_nil]
  · simp [rejected, report, Problem.isUnrecognized]

/-! ### Lists of lines -/

/-- Takes in numbered lines one after another. -/
def lines (b : Builder) (l : List (Nat × List String)) : Builder :=
  l.foldl (fun b line => b.line line.1 line.2) b

theorem cleared_lines (b : Builder) (l : List (Nat × List String)) :
    (b.lines l).cleared =
      b.cleared.lines (l.map fun line => (line.1, line.2.filter isRecognized)) := by
  unfold lines
  induction l generalizing b with
  | nil => rfl
  | cons line l ih => rw [List.foldl_cons, ih, cleared_line]; rfl

theorem rejected_lines (b : Builder) (l : List (Nat × List String)) :
    (b.lines l).rejected = b.rejected ++
      ((l.map fun line => (line.1, line.2.filter (!isRecognized ·))).filter (·.2 ≠ [])).map
        fun line => ⟨line.1, .unrecognized line.2⟩ := by
  unfold lines
  induction l generalizing b with
  | nil => simp
  | cons line l ih =>
    rw [List.foldl_cons, ih, rejected_line, List.append_assoc]
    congr 1
    rw [List.map_cons, List.filter_cons]
    by_cases hnone : line.2.filter (!isRecognized ·) = [] <;> simp [hnone]

theorem finish_cleared (b : Builder) :
    b.cleared.finish = { b.finish with
      diagnostics := b.finish.diagnostics.filter fun d => !d.problem.isUnrecognized } := by
  unfold finish
  cases hblock : b.block with
  | none => simp [cleared, hblock]
  | some block => simp [cleared, hblock, report, Problem.isUnrecognized]

/-- What is noted at the end of the source is about an open block. -/
theorem finish_rejected (b : Builder) :
    b.finish.diagnostics.filter (·.problem.isUnrecognized) = b.rejected := by
  unfold finish rejected
  cases hblock : b.block with
  | none => rfl
  | some block => simp [report, Problem.isUnrecognized]

end Builder

/-! ## Sources -/

/-- The lines of a source with their numbers, each as the list of its statements. -/
def lineTexts (source : String) : List (Nat × List String) :=
  ((sourceLines source.toList).zipIdx 1).map fun l => (l.2, lineStatements l.1)

/-- The compiler takes in the lines one after another. -/
theorem compile_eq_lines (source : String) :
    compile source = (({} : Builder).lines (lineTexts source)).finish := by
  unfold compile codeLines lineTexts Builder.lines
  congr 1
  generalize ({} : Builder) = b
  induction (sourceLines source.toList).zipIdx 1 generalizing b with
  | nil => rfl
  | cons l ls ih =>
    simp only [List.map_cons, List.filter_cons, List.foldl_cons]
    split
    · rw [List.foldl_cons, ih, lineStatements_trim]
    · rename_i hblank
      have hnil : lineStatements l.1 = [] := by
        have htrim : trim l.1 = [] := by simpa using hblank
        rw [← lineStatements_trim, htrim]
        rfl
      rw [ih, hnil]
      rfl

/-- The recognised statements of a line, joined again. -/
def recognizedLine (line : List Char) : String :=
  "; ".intercalate ((lineStatements line).filter isRecognized)

/-- The source with every line cut down to its recognised statements. -/
def recognizedSource (source : String) : String :=
  "\n".intercalate ((sourceLines source.toList).map recognizedLine)

/-- Leaving statements out divides and joins none of the others. -/
theorem lineStatements_recognizedLine (line : List Char) :
    lineStatements (recognizedLine line).toList = (lineStatements line).filter isRecognized := by
  apply lineStatements_intercalate
  · intro text htext
    exact isStatement_of_mem (List.mem_of_mem_filter htext)
  · exact (lineStatements_closed line).filter _

theorem not_newline_of_recognizedLine {line : List Char} (h : '\n' ∉ line) :
    '\n' ∉ (recognizedLine line).toList := by
  have hall : ∀ c ∈ (recognizedLine line).toList, c ≠ '\n' := by
    unfold recognizedLine
    rw [String.toList_intercalate]
    apply forall_mem_intercalate
    · simp
    · intro piece hpiece c hc hnewline
      obtain ⟨text, htext, rfl⟩ := List.mem_map.1 hpiece
      exact h (hnewline ▸ lineStatements_subset (List.mem_of_mem_filter htext) hc)
  exact fun hmem => hall '\n' hmem rfl

/-- **Leaving out.** The recognised statements stand on the lines on which they stood. -/
theorem lineTexts_recognizedSource (source : String) :
    lineTexts (recognizedSource source) =
      (lineTexts source).map fun line => (line.1, line.2.filter isRecognized) := by
  have hlines : sourceLines (recognizedSource source).toList =
      (sourceLines source.toList).map fun line => (recognizedLine line).toList := by
    unfold recognizedSource
    rw [sourceLines_intercalate, List.map_map]
    · rfl
    · simpa using sourceLines_ne_nil source.toList
    · intro line hline
      obtain ⟨old, hold, rfl⟩ := List.mem_map.1 hline
      exact not_newline_of_recognizedLine (not_newline_of_mem_sourceLines hold)
  unfold lineTexts
  rw [hlines, List.zipIdx_map, List.map_map, List.map_map]
  apply List.map_congr_left
  intro l _
  simp [lineStatements_recognizedLine]

example :
    recognizedSource "mov r, 1; ??; print \"a; b\n!; end" = "mov r, 1; print \"a; b\nend" := by
  decide

/-- The lines with unrecognised statements, each with its number and these statements. -/
def unrecognizedLines (source : String) : List (Nat × List String) :=
  ((lineTexts source).map fun line => (line.1, line.2.filter (!isRecognized ·))).filter (·.2 ≠ [])

/-- **Unrecognised statements are inert.** The source without its unrecognised statements compiles
to the same program, and its diagnostics are the others of the source. The source itself has one
diagnostic for each line with unrecognised statements, in the order of the lines, which shows these
statements joined by semicolons. -/
theorem unrecognized_statements_are_inert (source : String) :
    compile (recognizedSource source) =
      { compile source with
        diagnostics := (compile source).diagnostics.filter fun d => !d.problem.isUnrecognized } ∧
    (compile source).diagnostics.filter (·.problem.isUnrecognized) =
      (unrecognizedLines source).map (fun line => ⟨line.1, .unrecognized line.2⟩) ∧
    ((compile source).diagnostics.filter (·.problem.isUnrecognized)).map
        (fun d => (d.line, d.problem.message)) =
      (unrecognizedLines source).map fun line =>
        (line.1, "unrecognized line format: " ++ "; ".intercalate line.2) := by
  have hdiagnostics : (compile source).diagnostics.filter (·.problem.isUnrecognized) =
      (unrecognizedLines source).map (fun line => ⟨line.1, .unrecognized line.2⟩) := by
    rw [compile_eq_lines, Builder.finish_rejected, Builder.rejected_lines]
    rfl
  refine ⟨?_, hdiagnostics, ?_⟩
  · rw [compile_eq_lines (recognizedSource source), lineTexts_recognizedSource,
      compile_eq_lines source, ← Builder.finish_cleared, Builder.cleared_lines]
    rfl
  · rw [hdiagnostics, List.map_map]
    rfl

end LineAsm
