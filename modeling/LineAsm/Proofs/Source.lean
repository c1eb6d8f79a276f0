import LineAsm.Program.Compile
import LineAsm.Proofs.Tokens

/-!
# The statements of a source

The compiler trims a line before it splits it into statements and passes over blank lines. Neither
can be seen in the statements: blanks at the ends of a line end up at the ends of its first and its
last statement, and statements are trimmed.

Results:
* `trim_eq`: trimming may start at either end.
* `lineStatements_trim`: a line and the trimmed line have the same statements.
* `flatMap_codeLines`: the compiler meets the statements of the source, in order and on their lines.
-/
namespace LineAsm

open Text

/-! ## Trimming -/

theorem rdropWhile_isBlank_cons (c : Char) (cs : List Char) :
    (c :: cs).rdropWhile isBlank =
      if cs.rdropWhile isBlank = [] ∧ isBlank c = true then []
      else c :: cs.rdropWhile isBlank := by
  unfold List.rdropWhile
  rw [List.reverse_cons, List.dropWhile_append]
  cases h : cs.reverse.dropWhile isBlank with
  | nil => by_cases hc : isBlank c = true <;> simp [List.dropWhile, hc]
  | cons d ds => simp

theorem trim_eq (cs : List Char) : trim cs = dropBlanks (cs.rdropWhile isBlank) := by
  rw [trim_eq_rdropWhile]
  unfold dropBlanks
  induction cs with
  | nil => rfl
  | cons c cs ih =>
    by_cases hc : isBlank c = true
    · rw [List.dropWhile_cons_of_pos hc, ih, rdropWhile_isBlank_cons]
      by_cases hr : cs.rdropWhile isBlank = []
      · simp [hr, hc]
      · simp [hr, hc]
    · rw [List.dropWhile_cons_of_neg hc, rdropWhile_isBlank_cons]
      simp [hc]

theorem trim_cons {c : Char} (hc : isBlank c = true) (cs : List Char) :
    trim (c :: cs) = trim cs := by
  unfold trim dropBlanks
  rw [List.dropWhile_cons_of_pos hc]

/-! ## Blanks at the ends of a line -/

/-- A blank divides no statements and opens no quotes. -/
theorem splitOutside_blank {c : Char} (hc : isBlank c = true) (quoted : Bool) (cs : List Char) :
    splitOutside quoted (c :: cs) = (splitOutside quoted cs).modifyHead (c :: ·) := by
  have hsemi : c ≠ ';' := by rintro rfl; revert hc; decide
  have hquote : c ≠ '"' := by rintro rfl; revert hc; decide
  simp [splitOutside, hsemi, hquote]

theorem lineStatements_cons_blank {c : Char} (hc : isBlank c = true) (cs : List Char) :
    lineStatements (c :: cs) = lineStatements cs := by
  have hmap : ∀ parts : List (List Char),
      (parts.modifyHead (c :: ·)).map trim = parts.map trim := by
    intro parts
    cases parts with
    | nil => rfl
    | cons p ps => simp [trim_cons hc]
  unfold lineStatements splitStatements
  rw [splitOutside_blank hc, hmap]

/-- What a longer part loses on its right is decided by what the part loses there. -/
theorem map_rdropWhile_modifyHead {c : Char} {parts parts' : List (List Char)}
    (h : parts.map (·.rdropWhile isBlank) = parts'.map (·.rdropWhile isBlank)) :
    (parts.modifyHead (c :: ·)).map (·.rdropWhile isBlank) =
      (parts'.modifyHead (c :: ·)).map (·.rdropWhile isBlank) := by
  cases parts with
  | nil =>
    cases parts' with
    | nil => rfl
    | cons p' ps' => simp at h
  | cons p ps =>
    cases parts' with
    | nil => simp at h
    | cons p' ps' =>
      simp only [List.map_cons, List.cons.injEq] at h
      simp only [List.modifyHead_cons, List.map_cons, rdropWhile_isBlank_cons, h.1, h.2]

theorem splitOutside_concat_blank {c : Char} (hc : isBlank c = true) (quoted : Bool)
    (cs : List Char) :
    (splitOutside quoted (cs ++ [c])).map (·.rdropWhile isBlank) =
      (splitOutside quoted cs).map (·.rdropWhile isBlank) := by
  -- not about `trim`: blanks on the left of a part are kept as soon as a character precedes them
  induction cs generalizing quoted with
  | nil =>
    rw [List.nil_append, splitOutside_blank hc]
    simp [splitOutside, rdropWhile_isBlank_cons, hc]
  | cons d cs ih =>
    rw [List.cons_append]
    unfold splitOutside
    split
    · simp only [List.map_cons, ih]
    · exact map_rdropWhile_modifyHead (ih _)

theorem lineStatements_concat_blank {c : Char} (hc : isBlank c = true) (cs : List Char) :
    lineStatements (cs ++ [c]) = lineStatements cs := by
  have hmap : ∀ parts : List (List Char),
      parts.map trim = (parts.map (·.rdropWhile isBlank)).map dropBlanks := by
    intro parts
    rw [List.map_map]
    exact List.map_congr_left fun p _ => trim_eq p
  unfold lineStatements splitStatements
  rw [hmap, hmap, splitOutside_concat_blank hc]

theorem lineStatements_dropBlanks (cs : List Char) :
    lineStatements (dropBlanks cs) = lineStatements cs := by
  unfold dropBlanks
  induction cs with
  | nil => rfl
  | cons c cs ih =>
    by_cases hc : isBlank c = true
    · rw [List.dropWhile_cons_of_pos hc, ih, lineStatements_cons_blank hc]
    · rw [List.dropWhile_cons_of_neg hc]

theorem lineStatements_rdropWhile (cs : List Char) :
    lineStatements (cs.rdropWhile isBlank) = lineStatements cs := by
  induction cs using List.reverseRecOn with
  | nil => rfl
  | append_singleton cs c ih =>
    by_cases hc : isBlank c = true
    · rw [List.rdropWhile_concat_pos _ _ _ hc, ih, lineStatements_concat_blank hc]
    · rw [List.rdropWhile_concat_neg _ _ _ hc]

theorem lineStatements_trim (cs : List Char) : lineStatements (trim cs) = lineStatements cs := by
  rw [trim_eq_rdropWhile, lineStatements_rdropWhile, lineStatements_dropBlanks]

/-! ## The statements that the compiler meets -/

theorem flatMap_codeLines (source : String) :
    (codeLines source).flatMap (fun l => (lineStatements l.2).map fun text => (l.1, text)) =
      statements source := by
  unfold codeLines statements
  induction (sourceLines source.toList).zipIdx 1 with
  | nil => rfl
  | cons l ls ih =>
    obtain ⟨line, number⟩ := l
    simp only [List.map_cons, List.flatMap_cons, List.filter_cons]
    rw [← ih, ← lineStatements_trim line]
    split
    · rfl
    · rename_i hblank
      have hnil : trim line = [] := by simpa using hblank
      rw [hnil]
      rfl

end LineAsm
