import LineAsm.Proofs.Source

/-!
# Splitting and joining lines

A semicolon divides a line if an even number of quotes stands before it. So a part of a line has no
dividing semicolon of its own, and every part but the last leaves no quotes open. Both stay true
when parts are trimmed or left out, and then the parts can be joined and split again.

Results:
* `splitStatements_undivided`, `splitStatements_closed`: what the parts of a line are like.
* `isStatement_of_mem`, `lineStatements_closed`: the same for its statements.
* `lineStatements_intercalate`: such statements are found again when they are written on one line.
* `sourceLines_intercalate`: lines are found again when they are written below each other.
* `statements_append`, `statements_intercalate`: the statements of sources that are written below
  each other, and of lines with one statement each.
-/
namespace LineAsm

open Text

/-! ## Quotes -/

/-- Whether a text ends inside quotes; `quoted` says whether it starts inside. -/
def endsQuoted (quoted : Bool) (cs : List Char) : Bool :=
  cs.foldl (fun quoted c => if c = '"' then !quoted else quoted) quoted

@[simp] theorem endsQuoted_nil (quoted : Bool) : endsQuoted quoted [] = quoted := rfl

@[simp] theorem endsQuoted_cons (quoted : Bool) (c : Char) (cs : List Char) :
    endsQuoted quoted (c :: cs) = endsQuoted (if c = '"' then !quoted else quoted) cs := rfl

@[simp] theorem endsQuoted_append (quoted : Bool) (a b : List Char) :
    endsQuoted quoted (a ++ b) = endsQuoted (endsQuoted quoted a) b := List.foldl_append

/-- Blanks open and close nothing. -/
theorem endsQuoted_of_blank {cs : List Char} (h : ∀ c ∈ cs, isBlank c = true) (quoted : Bool) :
    endsQuoted quoted cs = quoted := by
  induction cs with
  | nil => rfl
  | cons c cs ih =>
    have hquote : c ≠ '"' := by
      rintro rfl
      have := h '"' List.mem_cons_self
      revert this
      decide
    rw [endsQuoted_cons, if_neg hquote]
    exact ih fun d hd => h d (List.mem_cons_of_mem _ hd)

/-! ## Texts without a dividing semicolon -/

/-- The text is a single part. -/
def Undivided (quoted : Bool) (cs : List Char) : Prop := splitOutside quoted cs = [cs]

theorem undivided_nil (quoted : Bool) : Undivided quoted [] := rfl

theorem undivided_cons {quoted : Bool} {c : Char} {cs : List Char} :
    Undivided quoted (c :: cs) ↔
      ¬ (c = ';' ∧ quoted = false) ∧ Undivided (if c = '"' then !quoted else quoted) cs := by
  unfold Undivided
  rw [splitOutside]
  by_cases hdivides : c = ';' ∧ quoted = false
  · simp [hdivides]
  · rw [if_neg hdivides]
    cases splitOutside (if c = '"' then !quoted else quoted) cs with
    | nil => simp
    | cons p ps => simp [hdivides]

theorem undivided_append {quoted : Bool} {a b : List Char} :
    Undivided quoted (a ++ b) ↔ Undivided quoted a ∧ Undivided (endsQuoted quoted a) b := by
  induction a generalizing quoted with
  | nil => simp [undivided_nil]
  | cons c a ih =>
    rw [List.cons_append, undivided_cons, undivided_cons, ih, endsQuoted_cons, and_assoc]

/-- A part that leaves no quotes open ends at the next semicolon. -/
theorem splitOutside_part {quoted : Bool} {part : List Char} (hpart : Undivided quoted part)
    (hclosed : endsQuoted quoted part = false) (rest : List Char) :
    splitOutside quoted (part ++ ';' :: rest) = part :: splitOutside false rest := by
  induction part generalizing quoted with
  | nil =>
    rw [endsQuoted_nil] at hclosed
    subst hclosed
    simp [splitOutside]
  | cons c part ih =>
    obtain ⟨hdivides, hpart⟩ := undivided_cons.1 hpart
    rw [endsQuoted_cons] at hclosed
    rw [List.cons_append, splitOutside, if_neg hdivides, ih hpart hclosed, List.modifyHead_cons]

/-! ## The parts of a line -/

/-- The first part goes on with the quotes at the start of the text; the others start outside. Every
part with another one behind it ends outside. -/
theorem splitOutside_parts (quoted : Bool) (cs : List Char) :
    ∃ first rest, splitOutside quoted cs = first :: rest ∧ Undivided quoted first ∧
      (rest ≠ [] → endsQuoted quoted first = false) ∧ (∀ part ∈ rest, Undivided false part) ∧
      rest.Pairwise fun part _ => endsQuoted false part = false := by
  induction cs generalizing quoted with
  | nil => exact ⟨[], [], rfl, undivided_nil _, by simp, by simp, .nil⟩
  | cons c cs ih =>
    rw [splitOutside]
    by_cases hdivides : c = ';' ∧ quoted = false
    · obtain ⟨rfl, rfl⟩ := hdivides
      obtain ⟨first, rest, hsplit, hfirst, hclosed, hrest, hpairs⟩ := ih false
      rw [if_pos ⟨rfl, rfl⟩, hsplit]
      refine ⟨[], first :: rest, rfl, undivided_nil _, fun _ => rfl, ?_, ?_⟩
      · exact List.forall_mem_cons.2 ⟨hfirst, hrest⟩
      · exact .cons (fun _ hlater => hclosed (List.ne_nil_of_mem hlater)) hpairs
    · obtain ⟨first, rest, hsplit, hfirst, hclosed, hrest, hpairs⟩ :=
        ih (if c = '"' then !quoted else quoted)
      rw [if_neg hdivides, hsplit]
      exact ⟨c :: first, rest, rfl, undivided_cons.2 ⟨hdivides, hfirst⟩, hclosed, hrest, hpairs⟩

theorem splitStatements_undivided {line part : List Char} (h : part ∈ splitStatements line) :
    Undivided false part := by
  obtain ⟨first, rest, hsplit, hfirst, -, hrest, -⟩ := splitOutside_parts false line
  unfold splitStatements at h
  rw [hsplit] at h
  rcases List.mem_cons.1 h with rfl | h
  · exact hfirst
  · exact hrest part h

/-- A part with another one behind it leaves no quotes open. -/
theorem splitStatements_closed (line : List Char) :
    (splitStatements line).Pairwise fun part _ => endsQuoted false part = false := by
  obtain ⟨first, rest, hsplit, -, hclosed, -, hpairs⟩ := splitOutside_parts false line
  unfold splitStatements
  rw [hsplit]
  exact .cons (fun _ hlater => hclosed (List.ne_nil_of_mem hlater)) hpairs

theorem splitOutside_subset {quoted : Bool} {cs part : List Char}
    (h : part ∈ splitOutside quoted cs) : part ⊆ cs := by
  induction cs generalizing quoted part with
  | nil =>
    rw [splitOutside, List.mem_singleton] at h
    exact h ▸ List.Subset.refl _
  | cons c cs ih =>
    rw [splitOutside] at h
    split at h
    · rcases List.mem_cons.1 h with rfl | h
      · exact List.nil_subset _
      · exact List.subset_cons_of_subset c (ih h)
    · have hparts := @ih (if c = '"' then !quoted else quoted)
      obtain ⟨first, rest, hsplit, -⟩ :=
        splitOutside_parts (if c = '"' then !quoted else quoted) cs
      rw [hsplit] at h hparts
      rcases List.mem_cons.1 h with rfl | h
      · exact List.cons_subset_cons c (hparts List.mem_cons_self)
      · exact List.subset_cons_of_subset c (hparts (List.mem_cons_of_mem _ h))

/-! ## Statements -/

/-- What trimming takes off. -/
theorem exists_blanks_trim (cs : List Char) :
    ∃ left right, cs = left ++ trim cs ++ right ∧ (∀ c ∈ left, isBlank c = true) ∧
      ∀ c ∈ right, isBlank c = true := by
  refine ⟨cs.takeWhile isBlank, (dropBlanks cs).rtakeWhile isBlank, ?_, ?_, ?_⟩
  · rw [trim_eq_rdropWhile, List.append_assoc, List.rdropWhile_append_rtakeWhile]
    exact List.takeWhile_append_dropWhile.symm
  · exact fun c hc => List.mem_takeWhile_imp hc
  · exact fun c hc => List.mem_rtakeWhile_imp hc

theorem trim_trim (cs : List Char) : trim (trim cs) = trim cs := by
  have hleft : dropBlanks (dropBlanks (cs.rdropWhile isBlank)) =
      dropBlanks (cs.rdropWhile isBlank) := List.dropWhile_idempotent _ _
  calc trim (trim cs) = trim (cs.rdropWhile isBlank) := by
        rw [trim_eq cs, trim_eq_rdropWhile, hleft, ← trim_eq_rdropWhile]
    _ = trim cs := by rw [trim_eq, trim_eq, List.rdropWhile_idempotent]

theorem endsQuoted_trim (cs : List Char) : endsQuoted false (trim cs) = endsQuoted false cs := by
  obtain ⟨left, right, hcs, hleft, hright⟩ := exists_blanks_trim cs
  conv_rhs => rw [hcs]
  simp [endsQuoted_of_blank hleft, endsQuoted_of_blank hright]

theorem Undivided.trim {cs : List Char} (h : Undivided false cs) :
    Undivided false (Text.trim cs) := by
  obtain ⟨left, right, hcs, hleft, -⟩ := exists_blanks_trim cs
  rw [hcs, undivided_append, undivided_append, endsQuoted_of_blank hleft] at h
  exact h.1.2

/-- The text can stand as a statement of a line. -/
structure IsStatement (text : List Char) : Prop where
  trimmed : trim text = text
  ne_nil : text ≠ []
  undivided : Undivided false text

theorem mem_lineStatements {line : List Char} {text : String} :
    text ∈ lineStatements line ↔
      ∃ part ∈ splitStatements line, trim part ≠ [] ∧ String.ofList (trim part) = text := by
  simp [lineStatements, and_assoc]

theorem isStatement_of_mem {line : List Char} {text : String} (h : text ∈ lineStatements line) :
    IsStatement text.toList := by
  obtain ⟨part, hpart, hne, rfl⟩ := mem_lineStatements.1 h
  rw [String.toList_ofList]
  exact ⟨trim_trim part, hne, (splitStatements_undivided hpart).trim⟩

theorem lineStatements_subset {line : List Char} {text : String} (h : text ∈ lineStatements line) :
    text.toList ⊆ line := by
  obtain ⟨part, hpart, -, rfl⟩ := mem_lineStatements.1 h
  obtain ⟨left, right, hcs, -⟩ := exists_blanks_trim part
  rw [String.toList_ofList]
  intro c hc
  apply splitOutside_subset hpart
  rw [hcs]
  simp [hc]

/-- A statement with another one behind it leaves no quotes open. -/
theorem lineStatements_closed (line : List Char) :
    (lineStatements line).Pairwise fun text _ => endsQuoted false text.toList = false := by
  unfold lineStatements
  rw [List.pairwise_map]
  apply List.Pairwise.filter
  rw [List.pairwise_map]
  refine (splitStatements_closed line).imp ?_
  intro part _ hclosed
  rw [String.toList_ofList, endsQuoted_trim]
  exact hclosed

/-! ## Joining -/

theorem IsStatement.lineStatements {text : List Char} (h : IsStatement text) :
    LineAsm.lineStatements text = [String.ofList text] := by
  have hsplit : splitStatements text = [text] := h.undivided
  simp [LineAsm.lineStatements, hsplit, h.trimmed, h.ne_nil]

theorem IsStatement.lineStatements_append {text : List Char} (h : IsStatement text)
    (hclosed : endsQuoted false text = false) (rest : List Char) :
    LineAsm.lineStatements (text ++ ';' :: rest) =
      String.ofList text :: LineAsm.lineStatements rest := by
  have hsplit : splitStatements (text ++ ';' :: rest) = text :: splitStatements rest :=
    splitOutside_part h.undivided hclosed rest
  simp [LineAsm.lineStatements, hsplit, h.trimmed, h.ne_nil]

/-- **Joining.** Statements of which only the last may leave quotes open are found again on the line
on which they are joined. -/
theorem lineStatements_intercalate {texts : List String} (h : ∀ t ∈ texts, IsStatement t.toList)
    (hclosed : texts.Pairwise fun t _ => endsQuoted false t.toList = false) :
    lineStatements ("; ".intercalate texts).toList = texts := by
  induction texts with
  | nil => rfl
  | cons t texts ih =>
    obtain ⟨ht, htexts⟩ := List.forall_mem_cons.1 h
    obtain ⟨hbefore, hrest⟩ := List.pairwise_cons.1 hclosed
    cases texts with
    | nil => rw [String.intercalate_singleton, ht.lineStatements, String.ofList_toList]
    | cons u texts =>
      have hline : ("; ".intercalate (t :: u :: texts)).toList =
          t.toList ++ ';' :: ' ' :: ("; ".intercalate (u :: texts)).toList := by
        simp
      rw [hline, ht.lineStatements_append (hbefore u List.mem_cons_self),
        lineStatements_cons_blank (by decide), ih htexts hrest, String.ofList_toList]

/-! ## Lines -/

theorem sourceLines_ne_nil (source : List Char) : sourceLines source ≠ [] :=
  List.splitOn_ne_nil '\n' source

theorem not_newline_of_mem_sourceLines {source line : List Char} (h : line ∈ sourceLines source) :
    '\n' ∉ line := by
  unfold sourceLines at h
  induction source generalizing line with
  | nil =>
    rw [List.splitOn_nil, List.mem_singleton] at h
    simp [h]
  | cons c cs ih =>
    rw [List.splitOn_cons_eq_if_modifyHead] at h
    split at h
    · rcases List.mem_cons.1 h with rfl | h
      · simp
      · exact ih h
    · rename_i hc
      obtain ⟨first, rest, hsplit⟩ := List.exists_cons_of_ne_nil (List.splitOn_ne_nil '\n' cs)
      rw [hsplit] at h ih
      rcases List.mem_cons.1 h with rfl | h
      · rw [List.mem_cons, not_or]
        exact ⟨fun heq => hc (beq_iff_eq.2 heq.symm), ih List.mem_cons_self⟩
      · exact ih (List.mem_cons_of_mem _ h)

theorem sourceLines_intercalate {lines : List String} (hne : lines ≠ [])
    (h : ∀ line ∈ lines, '\n' ∉ line.toList) :
    sourceLines ("\n".intercalate lines).toList = lines.map String.toList := by
  rw [String.toList_intercalate]
  exact List.splitOn_intercalate '\n' (by simpa using h) (by simpa using hne)

/-! ## Statements and lines -/

/-- The number of the first line is added to that of every statement. -/
theorem flatMap_zipIdx_add (lines : List (List Char)) (first extra : Nat) :
    (lines.zipIdx (first + extra)).flatMap
        (fun l => (lineStatements l.1).map fun text => (l.2, text)) =
      ((lines.zipIdx first).flatMap
        fun l => (lineStatements l.1).map fun text => (l.2, text)).map
          fun s => (s.1 + extra, s.2) := by
  induction lines generalizing first with
  | nil => rfl
  | cons line lines ih =>
    have hnext : first + extra + 1 = first + 1 + extra := by omega
    rw [List.zipIdx_cons, List.zipIdx_cons, List.flatMap_cons, List.flatMap_cons, hnext, ih,
      List.map_append, List.map_map]
    rfl

/-- Below another source the statements are the same, on later lines. -/
theorem statements_append (a b : String) :
    statements (a ++ "\n" ++ b) =
      statements a ++ (statements b).map fun s => (s.1 + (sourceLines a.toList).length, s.2) := by
  have hlist : (a ++ "\n" ++ b).toList = a.toList ++ '\n' :: b.toList := by simp
  have hlines : sourceLines (a ++ "\n" ++ b).toList =
      sourceLines a.toList ++ sourceLines b.toList := by
    rw [hlist]
    exact List.splitOn_append_cons_self _ _
  unfold statements
  rw [hlines, List.zipIdx_append, List.flatMap_append]
  exact congrArg _ (flatMap_zipIdx_add (sourceLines b.toList) 1 _)

/-- **Lines.** Statements that stand on lines of their own are found there. -/
theorem statements_intercalate {lines : List String}
    (h : ∀ line ∈ lines, IsStatement line.toList ∧ '\n' ∉ line.toList) :
    statements ("\n".intercalate lines) = (lines.zipIdx 1).map fun l => (l.2, l.1) := by
  cases lines with
  | nil => rfl
  | cons line rest =>
    unfold statements
    rw [sourceLines_intercalate (by simp) fun line hline => (h line hline).2, List.zipIdx_map,
      List.flatMap_map, List.map_eq_flatMap]
    refine List.flatMap_congr fun l hl => ?_
    obtain ⟨hstatement, -⟩ := h l.1 (List.fst_mem_of_mem_zipIdx hl)
    simp [hstatement.lineStatements]

end LineAsm
