import LineAsm.Advice.Suggestions
import LineAsm.Proofs.Unrecognized
import Mathlib.Data.List.SplitBy

/-!
# Two readers of a source

The compiler and the suggester both go through the statements of a source. The compiler trims every
line, passes over the blank ones and splits the others; the suggester splits the lines as they
stand. Both meet the same statements on the same lines, and all that the compiler makes of a source
is decided by them. Line ends make no difference either: a carriage return before a newline is a
blank at the end of its line, and an empty last line has no statements.

Results:
* `numbered_readLines`: how a line ends, and whether the last one does, cannot be seen.
* `Builder.groups_line`, `Builder.groups_lines`: the builder takes in the statements of a line, and
  of all lines, from the list of all statements.
* `compile_eq_programOf`: a program is decided by the statements of its source.
* `length_sourceLines`: a source has one line more than newlines.
* `compiler_and_suggester_read_alike`: what follows for sources, alone and below each other.
-/
namespace LineAsm

open Text

/-! ## Line ends -/

/-- The statements of lines that are numbered from 1. -/
def numbered (lines : List (List Char)) : List (Nat × String) :=
  (lines.zipIdx 1).flatMap fun l => (lineStatements l.1).map fun text => (l.2, text)

/-- A line without the carriage return at its end. -/
def dropReturn (line : List Char) : List Char :=
  if line.getLast? = some '\r' then line.dropLast else line

/-- The lines of a source by their ends: a newline or a carriage return and a newline. Behind the
last newline there is a line only if there is something on it. -/
def readLines (source : List Char) : List (List Char) :=
  (sourceLines source).dropLast.map dropReturn ++
    (sourceLines source).getLast?.toList.filter (!·.isEmpty)

theorem lineStatements_dropReturn (line : List Char) :
    lineStatements (dropReturn line) = lineStatements line := by
  unfold dropReturn
  split
  · rename_i hlast
    conv_rhs => rw [← List.dropLast_append_getLast? '\r' hlast]
    rw [lineStatements_concat_blank (by decide)]
  · rfl

theorem numbered_readLines (source : String) :
    numbered (readLines source.toList) = statements source := by
  obtain ⟨init, last, hlines⟩ :=
    (List.eq_nil_or_concat (sourceLines source.toList)).resolve_left (sourceLines_ne_nil _)
  unfold numbered readLines statements
  rw [hlines, List.concat_eq_append, List.dropLast_concat, List.getLast?_concat]
  simp only [List.zipIdx_append, List.flatMap_append, List.zipIdx_map, List.flatMap_map,
    List.length_map, Prod.map, id, lineStatements_dropReturn]
  cases last <;> rfl

example : readLines "a\r\n\r\nb\r".toList = ["a".toList, [], "b\r".toList] := by decide

/-! ## The builder and the list of all statements -/

/-- Two statements are on one line. -/
def sameLine (s t : Nat × String) : Bool := s.1 == t.1

namespace Builder

/-- Takes in statements that are on one line. -/
def group (b : Builder) : List (Nat × String) → Builder
  | [] => b
  | s :: rest => b.line s.1 (s.2 :: rest.map (·.2))

/-- Takes in numbered statements; neighbours with one number make a line. -/
def groups (b : Builder) (l : List (Nat × String)) : Builder :=
  (l.splitBy sameLine).foldl group b

/-- The statements of a line are taken in together, before those of other lines. -/
theorem groups_line (b : Builder) (number : Nat) (texts : List String)
    {later : List (Nat × String)} (hlater : ∀ s ∈ later, s.1 ≠ number) :
    b.groups (texts.map (fun text => (number, text)) ++ later) =
      (b.line number texts).groups later := by
  cases texts with
  | nil => rfl
  | cons text texts =>
    have hone : ((text :: texts).map fun text => (number, text)).splitBy sameLine =
        [(text :: texts).map fun text => (number, text)] := by
      apply List.splitBy_of_isChain (by simp)
      apply List.Pairwise.isChain
      rw [List.pairwise_map]
      exact List.pairwise_of_forall fun _ _ => by simp [sameLine]
    have hcut : ∀ s ∈ ((text :: texts).map fun text => (number, text)).getLast?,
        ∀ t ∈ later.head?, sameLine s t = false := by
      intro s hs t ht
      obtain ⟨_, -, rfl⟩ := List.mem_map.1 (List.mem_of_getLast? hs)
      have hne := hlater t (List.mem_of_mem_head? ht)
      simpa [sameLine] using hne.symm
    unfold groups
    rw [List.splitBy_append hcut, hone, List.foldl_append]
    simp [group, List.map_map, Function.comp_def]

theorem groups_lines (b : Builder) (lines : List (List Char)) (first : Nat) :
    b.groups ((lines.zipIdx first).flatMap
        fun l => (lineStatements l.1).map fun text => (l.2, text)) =
      b.lines ((lines.zipIdx first).map fun l => (l.2, lineStatements l.1)) := by
  induction lines generalizing b first with
  | nil => rfl
  | cons line lines ih =>
    rw [List.zipIdx_cons, List.flatMap_cons, List.map_cons, groups_line, ih]
    · rfl
    · intro s hs
      obtain ⟨l, hl, hs⟩ := List.mem_flatMap.1 hs
      obtain ⟨text, -, rfl⟩ := List.mem_map.1 hs
      have hnumber := List.le_snd_of_mem_zipIdx hl
      dsimp only
      omega

end Builder

/-- The program of a list of numbered statements. -/
def programOf (l : List (Nat × String)) : Program := (({} : Builder).groups l).finish

theorem compile_eq_programOf (source : String) :
    compile source = programOf (statements source) := by
  rw [compile_eq_lines]
  exact congrArg Builder.finish (Builder.groups_lines {} (sourceLines source.toList) 1).symm

/-! ## Numbers of lines -/

theorem length_sourceLines (source : List Char) :
    (sourceLines source).length = source.count '\n' + 1 := by
  unfold sourceLines
  induction source with
  | nil => rfl
  | cons c cs ih =>
    rw [List.splitOn_cons_eq_if_modifyHead, List.count_cons]
    split
    · rw [List.length_cons, ih]
    · rw [List.length_modifyHead, ih]

/-- The statements that the compiler meets: it trims the lines and passes over the blank ones before
it splits. -/
def visitedStatements (source : String) : List (Nat × String) :=
  (codeLines source).flatMap fun l => (lineStatements l.2).map fun text => (l.1, text)

/-- **Reading alike.** The compiler meets the statements of the source on the same lines and in the
same order. The program is decided by them, and what the suggester looks for is found in them, too.
They do not depend on how the lines end. Below another source they are the same, on later lines. -/
theorem compiler_and_suggester_read_alike :
    (∀ source : String,
      visitedStatements source = statements source ∧
      compile source = programOf (visitedStatements source) ∧
      Mentions.ofSource source =
        (visitedStatements source).foldr (fun s later => (Mentions.ofText s.2).append later) {} ∧
      numbered (readLines source.toList) = statements source) ∧
    ∀ a b : String,
      statements (a ++ "\n" ++ b) =
        statements a ++
          (statements b).map fun s => (s.1 + (a.toList.count '\n' + 1), s.2) := by
  refine ⟨fun source => ?_, fun a b => ?_⟩
  · have hvisited : visitedStatements source = statements source := flatMap_codeLines source
    rw [hvisited]
    exact ⟨rfl, compile_eq_programOf source, rfl, numbered_readLines source⟩
  · rw [statements_append, length_sourceLines]

end LineAsm
