import LineAsm.Proofs.Unrecognized

/-!
# Declarations and their order

A statement that starts with `declare` opens a block or is noted as it stands. Which of the two is
decided by the words at its start alone. A block is noted as well, with the line of its head, but
only when it is closed: behind all that has been noted inside it.

Results:
* `functionDeclaration?_eq_some_iff`: the texts that open a block.
* `Builder.statement_declares`: every other declaration is noted and changes nothing else.
* `compile_declarations`: the notes of a program are those that the statements of its source make.
* `Noted`, `Bracketed.noted`: the notes of a list of statements, by its blocks.
* `Noted.sorted_iff`: they are in the order of the source as long as nothing is declared inside a
  function on a later line than its head.
* `declarations_in_source_order_iff`, `declarations_open_block_or_are_noted`: what follows for the
  declarations of a program, and for one text.
-/
namespace LineAsm

open Text

/-! ## Heads of blocks -/

/-- A block is opened by `declare`, blanks, `function`, and then the end of the text or a blank. The
name is what follows, without the blanks around it. -/
theorem functionDeclaration?_eq_some_iff {text name : String} :
    functionDeclaration? text = some name ↔
      ∃ gap tail : List Char, (∀ c ∈ gap, isBlank c = true) ∧
        text.toList = declareWord ++ gap ++ functionWord ++ tail ∧
        (∀ c ∈ tail.head?, isBlank c = true) ∧ name = String.ofList (trim tail) := by
  have hends : ∀ tail : List Char, (tail.takeWhile isBlank).isEmpty ∧ tail ≠ [] ↔
      ¬ ∀ c ∈ tail.head?, isBlank c = true := by
    intro tail
    cases tail with
    | nil => simp
    | cons c tail => by_cases hc : isBlank c = true <;> simp [hc]
  unfold functionDeclaration?
  constructor
  · intro h
    obtain ⟨afterDeclare, hdeclare, h⟩ := Option.bind_eq_some_iff.1 h
    obtain ⟨tail, hfunction, h⟩ := Option.bind_eq_some_iff.1 h
    rw [List.isPrefixOf?_eq_some_iff_append_eq] at hdeclare hfunction
    split at h
    · cases h
    · rename_i hcut
      refine ⟨afterDeclare.takeWhile isBlank, tail, fun c hc => List.mem_takeWhile_imp hc, ?_, ?_,
        (Option.some.inj h).symm⟩
      · have hrun : afterDeclare.takeWhile isBlank ++ dropBlanks afterDeclare = afterDeclare :=
          List.takeWhile_append_dropWhile
        rw [← hdeclare, List.append_assoc, List.append_assoc, hfunction, hrun]
      · rwa [hends, not_not] at hcut
  · rintro ⟨gap, tail, hgap, htext, htail, rfl⟩
    have hstop : ∀ c ∈ (functionWord ++ tail).head?, isBlank c = false :=
      stops_cons (c := 'f') (by decide) _
    have hdrop : dropBlanks (gap ++ (functionWord ++ tail)) = functionWord ++ tail :=
      dropWhile_run hgap hstop
    rw [List.append_assoc, List.append_assoc] at htext
    rw [List.isPrefixOf?_eq_some_iff_append_eq.2 htext.symm, Option.bind_some, hdrop,
      List.isPrefixOf?_eq_some_iff_append_eq.2 rfl, Option.bind_some, if_neg]
    rwa [hends, not_not]

/-! ## Notes -/

namespace Declaration

/-- The line that a note shows. -/
def line : Declaration → Nat
  | .var line _ | .function line _ | .other line _ => line

def isFunction : Declaration → Bool
  | .function .. => true
  | .var .. | .other .. => false

/-- The note of a declaration that opens no block: of a variable, or of the text as it stands. -/
def note (line : Nat) (text : String) : Declaration :=
  match variableDeclaration? text with
  | some content => .var line content
  | none => .other line text

theorem line_note (line : Nat) (text : String) : (note line text).line = line := by
  unfold note
  split <;> rfl

theorem isFunction_note (line : Nat) (text : String) : (note line text).isFunction = false := by
  unfold note
  split <;> rfl

end Declaration

/-- The note that a statement makes where it stands. -/
def note? (s : Nat × String) : Option Declaration :=
  if declareWord <+: s.2.toList ∧ functionDeclaration? s.2 = none then some (.note s.1 s.2)
  else none

/-- The note of a closed block: a function with a valid name. -/
def functionNote? (line : Nat) (name : String) : Option Declaration :=
  if isFunctionName name.toList then some (.function line name) else none

theorem note?_eq_some {s : Nat × String} {d : Declaration} (h : note? s = some d) :
    d = .note s.1 s.2 := by
  unfold note? at h
  split at h
  · exact (Option.some.inj h).symm
  · cases h

theorem note?_head {s : Nat × String} {name : String} (h : functionDeclaration? s.2 = some name) :
    note? s = none := by
  simp [note?, h]

theorem ne_end_of_head {text name : String} (h : functionDeclaration? text = some name) :
    text ≠ "end" := by
  rintro rfl
  have hnone : functionDeclaration? "end" = none := by decide
  rw [hnone] at h
  cases h

theorem not_declares_end : ¬ declareWord <+: "end".toList := by decide

theorem note?_foot {s : Nat × String} (h : s.2 = "end") : note? s = none := by
  unfold note?
  rw [h, if_neg fun hdeclares => not_declares_end hdeclares.1]

/-! ## The builder's notes -/

theorem keywordShape_ne_declaration (text : List Char) : keywordShape text ≠ .declaration := by
  unfold keywordShape
  split
  · simp
  · split <;> simp

theorem Shape.of_eq_declaration_iff {text : List Char} :
    Shape.of text = .declaration ↔ declareWord <+: text := by
  constructor
  · intro h
    by_contra hdeclares
    rw [Shape.of, if_neg (by simpa using hdeclares)] at h
    split at h
    · exact keywordShape_ne_declaration text h
    · split at h
      · exact keywordShape_ne_declaration text h
      · split at h
        · split at h <;> cases h
        · cases h
  · intro hdeclares
    simp [Shape.of, hdeclares]

/-- A text that is neither a declaration nor `end` is executed or not recognised. -/
theorem Role.of_plain {text : String} (hdeclares : ¬ declareWord <+: text.toList)
    (hhead : functionDeclaration? text = none) (hfoot : text ≠ "end") :
    (∃ statement, Role.of text = .executes statement) ∨ Role.of text = .unrecognized := by
  unfold Role.of
  rw [hhead]
  simp only [if_neg hfoot]
  split
  · rename_i hshape
    exact absurd (Shape.of_eq_declaration_iff.1 hshape) hdeclares
  · cases Statement.decode text with
    | none => exact .inr rfl
    | some statement => exact .inl ⟨statement, rfl⟩

namespace Builder

/-- **Declarations.** One that opens no block is noted, and nothing else happens. -/
theorem statement_declares {text : String} (hdeclares : declareWord <+: text.toList)
    (hhead : functionDeclaration? text = none) (b : Builder) (line : Nat) :
    b.statement line text =
      { b with declarations := b.declarations.push (.note line text) } := by
  have hfoot : text ≠ "end" := by
    rintro rfl
    exact not_declares_end hdeclares
  unfold statement Role.of
  rw [hhead]
  simp only [if_neg hfoot, Shape.of_eq_declaration_iff.2 hdeclares]
  rfl

variable {b : Builder}

theorem declarations_emit (b : Builder) (i : Instruction) :
    (b.emit i).declarations = b.declarations := by
  unfold emit
  split <;> rfl

theorem declarations_statement {s : Nat × String} (noFoot : s.2 ≠ "end") :
    (b.statement s.1 s.2).declarations.toList = b.declarations.toList ++ (note? s).toList := by
  cases hhead : functionDeclaration? s.2 with
  | some name =>
    rw [statement_head hhead, note?_head hhead]
    unfold openBlock
    split
    · simp [report]
    · dsimp only
      split <;> simp [report]
  | none =>
    by_cases hdeclares : declareWord <+: s.2.toList
    · rw [statement_declares hdeclares hhead]
      simp [note?, hdeclares, hhead]
    · have hnote : note? s = none := by simp [note?, hdeclares]
      rw [hnote]
      unfold statement
      rcases Role.of_plain hdeclares hhead noFoot with ⟨statement, hrole⟩ | hrole
      · simp [hrole, declarations_emit]
      · simp [hrole]

/-- Outside a block, `end` notes nothing. -/
theorem declarations_stray (hb : b.block = none) {s : Nat × String} (isFoot : s.2 = "end") :
    (b.statement s.1 s.2).declarations = b.declarations := by
  rw [statement_foot isFoot]
  simp [closeBlock, hb, report]

/-- A block is noted when it is closed, on the line on which it was opened. -/
theorem declarations_closes {block : Block} (hb : b.block = some block) {s : Nat × String}
    (isFoot : s.2 = "end") :
    (b.statement s.1 s.2).declarations.toList =
      b.declarations.toList ++ (functionNote? block.line block.name).toList := by
  rw [statement_foot isFoot]
  unfold closeBlock functionNote?
  rw [hb]
  dsimp only
  split <;> simp

/-- Up to its `end`, the statements of a block are noted like others. -/
theorem declarations_inside {l : List (Nat × String)} (noFoot : ∀ s ∈ l, s.2 ≠ "end") :
    (b.statements l).declarations.toList = b.declarations.toList ++ l.filterMap note? := by
  induction l generalizing b with
  | nil => simp
  | cons s l ih =>
    obtain ⟨hs, hl⟩ := List.forall_mem_cons.1 noFoot
    rw [statements_cons, ih hl, declarations_statement hs]
    cases hnote : note? s <;> simp [hnote]

/-! ### Diagnostics play no part -/

/-- The builder without its diagnostics. -/
def silent (b : Builder) : Builder := { b with diagnostics := #[] }

theorem silent_statement (b : Builder) (number : Nat) (text : String) :
    (b.silent.statement number text).silent = (b.statement number text).silent := by
  obtain ⟨added, -, h⟩ := b.statement_notes number text
  have hsilent : b.silent.statement number text =
      { b.statement number text with diagnostics := #[] ++ added } := h #[]
  rw [hsilent]
  rfl

theorem silent_statements (b : Builder) (l : List (Nat × String)) :
    (b.silent.statements l).silent = (b.statements l).silent := by
  induction l generalizing b with
  | nil => rfl
  | cons s l ih =>
    rw [statements_cons, statements_cons, ← ih, silent_statement, ih]

theorem silent_line (b : Builder) (number : Nat) (texts : List String) :
    (b.line number texts).silent =
      (b.statements (texts.map fun text => (number, text))).silent := by
  have hfold : b.statements (texts.map fun text => (number, text)) =
      texts.foldl (fun b text => b.statement number text) b := List.foldl_map
  unfold line
  rw [hfold]
  dsimp only
  split <;> rfl

theorem silent_lines (b : Builder) (l : List (Nat × List String)) :
    (b.lines l).silent =
      (b.statements (l.flatMap fun line => line.2.map fun text => (line.1, text))).silent := by
  unfold lines
  induction l generalizing b with
  | nil => rfl
  | cons line l ih =>
    rw [List.foldl_cons, ih, List.flatMap_cons, statements_append, ← silent_statements,
      silent_line, silent_statements]

end Builder

/-- The notes of a program are those that the statements of its source make, one after another. -/
theorem compile_declarations (source : String) :
    (compile source).declarations =
      (({} : Builder).statements (statements source)).declarations.toList := by
  have hfinish : ∀ b : Builder, b.finish.declarations = b.silent.declarations.toList := by
    intro b
    unfold Builder.finish
    cases b.block <;> rfl
  have hstatements : statements source =
      (lineTexts source).flatMap fun line => line.2.map fun text => (line.1, text) := by
    unfold statements lineTexts
    rw [List.flatMap_map]
  rw [compile_eq_lines, hfinish, Builder.silent_lines, ← hstatements]
  rfl

/-! ## The notes of a list of statements -/

/-- What a list of statements notes, in the order of the notes. The statements are read as in
`Bracketed`; here the head of a block is kept. -/
inductive Noted : List (Nat × String) → List Declaration → Prop where
  | nil : Noted [] []
  | loose {s : Nat × String} {rest : List (Nat × String)} {notes : List Declaration}
      (noHead : functionDeclaration? s.2 = none) (after : Noted rest notes) :
      Noted (s :: rest) ((note? s).toList ++ notes)
  | closed {head foot : Nat × String} {name : String} {body rest : List (Nat × String)}
      {notes : List Declaration} (isHead : functionDeclaration? head.2 = some name)
      (noFoot : ∀ s ∈ body, s.2 ≠ "end") (isFoot : foot.2 = "end") (after : Noted rest notes) :
      Noted (head :: (body ++ foot :: rest))
        (body.filterMap note? ++ ((functionNote? head.1 name).toList ++ notes))
  | unclosed {head : Nat × String} {name : String} {body : List (Nat × String)}
      (isHead : functionDeclaration? head.2 = some name) (noFoot : ∀ s ∈ body, s.2 ≠ "end") :
      Noted (head :: body) (body.filterMap note?)

/-- **Notes.** The builder notes what the blocks say. -/
theorem Bracketed.noted {l : List (Nat × String)} {parts : List Part} (h : Bracketed l parts)
    {b : Builder} (hb : b.block = none) :
    ∃ notes, Noted l notes ∧
      (b.statements l).declarations.toList = b.declarations.toList ++ notes := by
  induction h generalizing b with
  | nil => exact ⟨[], .nil, by simp⟩
  | @loose s rest parts noHead _ ih =>
    obtain ⟨-, -, hblock⟩ := Builder.core_eq_iff.1 (Builder.core_statement_loose hb noHead)
    obtain ⟨notes, hnoted, hrest⟩ := ih hblock
    have hs : (b.statement s.1 s.2).declarations.toList =
        b.declarations.toList ++ (note? s).toList := by
      by_cases isFoot : s.2 = "end"
      · rw [Builder.declarations_stray hb isFoot, note?_foot isFoot]
        simp
      · exact Builder.declarations_statement isFoot
    refine ⟨_, .loose noHead hnoted, ?_⟩
    rw [Builder.statements_cons, hrest, hs, List.append_assoc]
  | @closed head foot name body rest parts isHead noFoot isFoot _ ih =>
    have hopens := Builder.core_statement_opens hb isHead
    obtain ⟨-, -, hblock₁⟩ := Builder.core_eq_iff.1 hopens
    obtain ⟨-, -, hblock₂⟩ :=
      Builder.core_eq_iff.1 (Builder.core_statements_inside hblock₁ noFoot)
    obtain ⟨-, -, hblock₃⟩ :=
      Builder.core_eq_iff.1 (Builder.core_statement_closes hblock₂ isFoot)
    obtain ⟨notes, hnoted, hrest⟩ := ih hblock₃
    refine ⟨_, .closed isHead noFoot isFoot hnoted, ?_⟩
    rw [Builder.statements_cons, Builder.statements_append, Builder.statements_cons, hrest,
      Builder.declarations_closes hblock₂ isFoot, Builder.declarations_inside noFoot,
      Builder.declarations_statement (ne_end_of_head isHead), note?_head isHead]
    simp
  | @unclosed head name body isHead noFoot =>
    refine ⟨_, .unclosed isHead noFoot, ?_⟩
    rw [Builder.statements_cons, Builder.declarations_inside noFoot,
      Builder.declarations_statement (ne_end_of_head isHead), note?_head isHead]
    simp

/-- The notes of a source. -/
theorem noted_compile (source : String) :
    Noted (statements source) (compile source).declarations := by
  obtain ⟨parts, hparts⟩ := exists_bracketed (statements source)
  obtain ⟨notes, hnoted, hnotes⟩ := hparts.noted (b := {}) rfl
  rw [compile_declarations, hnotes]
  exact hnoted

theorem isFunction_of_mem_notes {l : List (Nat × String)} {d : Declaration}
    (hd : d ∈ l.filterMap note?) : d.isFunction = false := by
  obtain ⟨s, -, hnote⟩ := List.mem_filterMap.1 hd
  rw [note?_eq_some hnote, Declaration.isFunction_note]

theorem toList_note? (s : Nat × String) : (note? s).toList = [s].filterMap note? := by
  cases hnote : note? s <;> simp [hnote]

theorem line_of_note? {s : Nat × String} {d : Declaration} (h : note? s = some d) :
    d.line = s.1 := by
  rw [note?_eq_some h, Declaration.line_note]

theorem functionNote?_eq_some {line : Nat} {name : String} {d : Declaration}
    (h : functionNote? line name = some d) : d.line = line ∧ d.isFunction = true := by
  unfold functionNote? at h
  split at h
  · cases h
    exact ⟨rfl, rfl⟩
  · cases h

namespace Noted

variable {l : List (Nat × String)} {notes : List Declaration}

/-- A note shows the line of a statement. -/
theorem exists_line (h : Noted l notes) {d : Declaration} (hd : d ∈ notes) :
    ∃ s ∈ l, s.1 = d.line := by
  have hbody : ∀ {body : List (Nat × String)}, d ∈ body.filterMap note? →
      ∃ s ∈ body, s.1 = d.line := by
    intro body hmem
    obtain ⟨s, hs, hnote⟩ := List.mem_filterMap.1 hmem
    exact ⟨s, hs, (line_of_note? hnote).symm⟩
  induction h with
  | nil => cases hd
  | @loose s rest notes noHead _ ih =>
    rcases List.mem_append.1 hd with hd | hd
    · exact ⟨s, List.mem_cons_self, (line_of_note? (by simpa using hd)).symm⟩
    · obtain ⟨t, ht, hline⟩ := ih hd
      exact ⟨t, List.mem_cons_of_mem _ ht, hline⟩
  | @closed head foot name body rest notes isHead noFoot isFoot _ ih =>
    rcases List.mem_append.1 hd with hd | hd
    · obtain ⟨t, ht, hline⟩ := hbody hd
      exact ⟨t, by simp [ht], hline⟩
    · rcases List.mem_append.1 hd with hd | hd
      · obtain ⟨hline, -⟩ := functionNote?_eq_some (by simpa using hd)
        exact ⟨head, List.mem_cons_self, hline.symm⟩
      · obtain ⟨t, ht, hline⟩ := ih hd
        exact ⟨t, by simp [ht], hline⟩
  | @unclosed head name body isHead noFoot =>
    obtain ⟨t, ht, hline⟩ := hbody hd
    exact ⟨t, List.mem_cons_of_mem _ ht, hline⟩

/-- The notes of the other declarations are in their order. -/
theorem filter_others (h : Noted l notes) :
    (notes.filter fun d => !d.isFunction) = l.filterMap note? := by
  have hbody : ∀ body : List (Nat × String),
      ((body.filterMap note?).filter fun d => !d.isFunction) = body.filterMap note? := by
    intro body
    rw [List.filter_eq_self]
    intro d hd
    simp [isFunction_of_mem_notes hd]
  have hfunction : ∀ line name,
      ((functionNote? line name).toList.filter fun d => !d.isFunction) = [] := by
    intro line name
    rw [List.filter_eq_nil_iff]
    intro d hd
    simp [(functionNote?_eq_some (by simpa using hd)).2]
  induction h with
  | nil => rfl
  | @loose s rest notes noHead _ ih =>
    rw [List.filter_append, ih, toList_note?, hbody, ← List.filterMap_append, List.singleton_append]
  | @closed head foot name body rest notes isHead noFoot isFoot _ ih =>
    rw [List.filter_append, List.filter_append, ih, hbody, hfunction, List.nil_append,
      List.filterMap_cons_none (note?_head isHead), List.filterMap_append,
      List.filterMap_cons_none (note?_foot isFoot)]
  | @unclosed head name body isHead noFoot =>
    rw [hbody, List.filterMap_cons_none (note?_head isHead)]

end Noted

/-! ## The order of the notes -/

theorem statements_ascending (source : String) :
    (statements source).Pairwise fun s t => s.1 ≤ t.1 := by
  have hnumbers : ((sourceLines source.toList).zipIdx 1).Pairwise fun k l => k.2 < l.2 := by
    rw [← List.pairwise_map, List.zipIdx_map_snd]
    exact List.pairwise_lt_range' 1
  unfold statements
  rw [List.pairwise_flatMap]
  constructor
  · intro k _
    rw [List.pairwise_map]
    exact List.pairwise_of_forall fun _ _ => Nat.le_refl _
  · refine hnumbers.imp ?_
    intro k l hlt s hs t ht
    obtain ⟨_, -, rfl⟩ := List.mem_map.1 hs
    obtain ⟨_, -, rfl⟩ := List.mem_map.1 ht
    exact Nat.le_of_lt hlt

theorem filterMap_note?_sorted {l : List (Nat × String)} (h : l.Pairwise fun s t => s.1 ≤ t.1) :
    (l.filterMap note?).Pairwise fun d e => d.line ≤ e.line := by
  rw [List.pairwise_filterMap]
  refine h.imp ?_
  intro s t hst d hd e he
  rw [line_of_note? hd, line_of_note? he]
  exact hst

/-- A list of statements has a closed block with this head and this body. -/
inductive HasBlock (head : Nat × String) (body : List (Nat × String)) :
    List (Nat × String) → Prop where
  | here {foot : Nat × String} {name : String} {rest : List (Nat × String)}
      (isHead : functionDeclaration? head.2 = some name) (noFoot : ∀ s ∈ body, s.2 ≠ "end")
      (isFoot : foot.2 = "end") : HasBlock head body (head :: (body ++ foot :: rest))
  | afterLoose {s : Nat × String} {rest : List (Nat × String)}
      (noHead : functionDeclaration? s.2 = none) (later : HasBlock head body rest) :
      HasBlock head body (s :: rest)
  | afterBlock {head' foot' : Nat × String} {name' : String} {body' rest : List (Nat × String)}
      (isHead : functionDeclaration? head'.2 = some name') (noFoot : ∀ s ∈ body', s.2 ≠ "end")
      (isFoot : foot'.2 = "end") (later : HasBlock head body rest) :
      HasBlock head body (head' :: (body' ++ foot' :: rest))

/-- No declaration stands inside a function on a later line than the function's head. -/
def DeclaresOutside (l : List (Nat × String)) : Prop :=
  ∀ head body name, HasBlock head body l → functionDeclaration? head.2 = some name →
    isFunctionName name.toList = true → ∀ s ∈ body, (note? s).isSome = true → s.1 ≤ head.1

namespace DeclaresOutside

theorem nil : DeclaresOutside [] := by
  intro head body name hblock
  cases hblock

theorem loose_iff {s : Nat × String} {rest : List (Nat × String)}
    (noHead : functionDeclaration? s.2 = none) :
    DeclaresOutside (s :: rest) ↔ DeclaresOutside rest := by
  constructor
  · intro h head body name hblock
    exact h head body name (.afterLoose noHead hblock)
  · intro h head body name hblock
    generalize hl : s :: rest = l at hblock
    cases hblock with
    | here isHead | afterBlock isHead =>
      obtain ⟨rfl, -⟩ := List.cons.inj hl
      rw [noHead] at isHead
      cases isHead
    | afterLoose _ later =>
      obtain ⟨rfl, rfl⟩ := List.cons.inj hl
      exact h head body name later

theorem closed_iff {head foot : Nat × String} {name : String} {body rest : List (Nat × String)}
    (isHead : functionDeclaration? head.2 = some name) (noFoot : ∀ s ∈ body, s.2 ≠ "end")
    (isFoot : foot.2 = "end") :
    DeclaresOutside (head :: (body ++ foot :: rest)) ↔
      (isFunctionName name.toList = true →
        ∀ s ∈ body, (note? s).isSome = true → s.1 ≤ head.1) ∧ DeclaresOutside rest := by
  constructor
  · intro h
    refine ⟨h head body name (.here isHead noFoot isFoot) isHead, ?_⟩
    intro head' body' name' hblock
    exact h head' body' name' (.afterBlock isHead noFoot isFoot hblock)
  · rintro ⟨hbody, hrest⟩ head' body' name' hblock hname
    generalize hl : head :: (body ++ foot :: rest) = l at hblock
    cases hblock with
    | here _ noFoot' isFoot' =>
      obtain ⟨rfl, htail⟩ := List.cons.inj hl
      obtain ⟨rfl, -⟩ := append_end_inj noFoot noFoot' isFoot isFoot' htail
      rw [isHead] at hname
      cases hname
      exact hbody
    | afterLoose noHead =>
      obtain ⟨rfl, -⟩ := List.cons.inj hl
      rw [isHead] at noHead
      cases noHead
    | afterBlock _ noFoot' isFoot' later =>
      obtain ⟨rfl, htail⟩ := List.cons.inj hl
      obtain ⟨-, rfl⟩ := append_end_inj noFoot noFoot' isFoot isFoot' htail
      exact hrest head' body' name' later hname

theorem unclosed {head : Nat × String} {name : String} {body : List (Nat × String)}
    (isHead : functionDeclaration? head.2 = some name) (noFoot : ∀ s ∈ body, s.2 ≠ "end") :
    DeclaresOutside (head :: body) := by
  intro head' body' name' hblock
  generalize hl : head :: body = l at hblock
  cases hblock with
  | @here foot' _ _ _ _ isFoot' =>
    obtain ⟨-, rfl⟩ := List.cons.inj hl
    exact absurd isFoot' (noFoot foot' (by simp))
  | afterLoose noHead =>
    obtain ⟨rfl, -⟩ := List.cons.inj hl
    rw [isHead] at noHead
    cases noHead
  | @afterBlock _ foot' _ _ _ _ _ isFoot' =>
    obtain ⟨-, rfl⟩ := List.cons.inj hl
    exact absurd isFoot' (noFoot foot' (by simp))

end DeclaresOutside

/-- How the notes inside a block compare with the note of the block. -/
theorem le_functionNote_iff {body : List (Nat × String)} {line : Nat} {name : String} :
    (∀ d ∈ body.filterMap note?, ∀ e ∈ (functionNote? line name).toList, d.line ≤ e.line) ↔
      (isFunctionName name.toList = true →
        ∀ s ∈ body, (note? s).isSome = true → s.1 ≤ line) := by
  constructor
  · intro h hname s hs hnote
    obtain ⟨d, hd⟩ := Option.isSome_iff_exists.1 hnote
    have hle := h d (List.mem_filterMap.2 ⟨s, hs, hd⟩) (.function line name)
      (by simp [functionNote?, hname])
    rwa [line_of_note? hd] at hle
  · intro h d hd e he
    obtain ⟨s, hs, hnote⟩ := List.mem_filterMap.1 hd
    have hname : isFunctionName name.toList = true := by
      by_contra hno
      simp [functionNote?, hno] at he
    rw [line_of_note? hnote, (functionNote?_eq_some (by simpa using he)).1]
    exact h hname s hs (by simp [hnote])

/-- A note in front of notes on later lines. -/
theorem sorted_cons_iff {notes : List Declaration} {d? : Option Declaration} {line : Nat}
    (hline : ∀ d, d? = some d → d.line = line) (hnotes : ∀ d ∈ notes, line ≤ d.line) :
    ((d?.toList ++ notes).Pairwise fun d e => d.line ≤ e.line) ↔
      notes.Pairwise fun d e => d.line ≤ e.line := by
  cases d? with
  | none => rfl
  | some d =>
    rw [Option.toList_some, List.singleton_append, List.pairwise_cons, and_iff_right]
    rwa [hline d rfl]

namespace Noted

variable {l : List (Nat × String)} {notes : List Declaration}

theorem le_line (h : Noted l notes) {line : Nat} (hl : ∀ s ∈ l, line ≤ s.1) :
    ∀ d ∈ notes, line ≤ d.line := by
  intro d hd
  obtain ⟨s, hs, hline⟩ := h.exists_line hd
  rw [← hline]
  exact hl s hs

/-- **Order of the notes.** The notes of statements on ascending lines are on ascending lines as
long as nothing is declared inside a function on a later line than its head. -/
theorem sorted_iff (h : Noted l notes) (hl : l.Pairwise fun s t => s.1 ≤ t.1) :
    (notes.Pairwise fun d e => d.line ≤ e.line) ↔ DeclaresOutside l := by
  induction h with
  | nil => exact iff_of_true .nil .nil
  | @loose s rest notes noHead after ih =>
    obtain ⟨hs, hrest⟩ := List.pairwise_cons.1 hl
    rw [DeclaresOutside.loose_iff noHead, ← ih hrest]
    exact sorted_cons_iff (fun d hd => line_of_note? hd) (after.le_line hs)
  | @closed head foot name body rest notes isHead noFoot isFoot after ih =>
    obtain ⟨hhead, htail⟩ := List.pairwise_cons.1 hl
    obtain ⟨hbody, hfoot, hcross⟩ := List.pairwise_append.1 htail
    obtain ⟨-, hrest⟩ := List.pairwise_cons.1 hfoot
    rw [DeclaresOutside.closed_iff isHead noFoot isFoot, ← ih hrest, List.pairwise_append,
      sorted_cons_iff (fun d hd => (functionNote?_eq_some hd).1)
        (after.le_line fun s hs => hhead s (by simp [hs]))]
    have hlater : ∀ d ∈ body.filterMap note?, ∀ e ∈ notes, d.line ≤ e.line := by
      intro d hd e he
      obtain ⟨s, hs, hnote⟩ := List.mem_filterMap.1 hd
      rw [line_of_note? hnote]
      exact after.le_line (fun t ht => hcross s hs t (List.mem_cons_of_mem _ ht)) e he
    have hblock : (∀ d ∈ body.filterMap note?, ∀ e ∈ (functionNote? head.1 name).toList ++ notes,
        d.line ≤ e.line) ↔ (isFunctionName name.toList = true →
          ∀ s ∈ body, (note? s).isSome = true → s.1 ≤ head.1) := by
      rw [← le_functionNote_iff]
      constructor
      · intro h d hd
        exact (List.forall_mem_append.1 (h d hd)).1
      · intro h d hd
        exact List.forall_mem_append.2 ⟨h d hd, hlater d hd⟩
    rw [hblock, and_iff_right (filterMap_note?_sorted hbody)]
    exact and_comm
  | @unclosed head name body isHead noFoot =>
    obtain ⟨-, hbody⟩ := List.pairwise_cons.1 hl
    exact iff_of_true (filterMap_note?_sorted hbody) (.unclosed isHead noFoot)

/-- The notes of functions are in the order of their heads. -/
theorem filter_functions_sorted (h : Noted l notes) (hl : l.Pairwise fun s t => s.1 ≤ t.1) :
    (notes.filter Declaration.isFunction).Pairwise fun d e => d.line ≤ e.line := by
  have hbody : ∀ body : List (Nat × String),
      (body.filterMap note?).filter Declaration.isFunction = [] := by
    intro body
    rw [List.filter_eq_nil_iff]
    intro d hd
    simp [isFunction_of_mem_notes hd]
  induction h with
  | nil => exact .nil
  | @loose s rest notes noHead _ ih =>
    rw [List.filter_append, toList_note?, hbody, List.nil_append]
    exact ih (List.pairwise_cons.1 hl).2
  | @closed head foot name body rest notes isHead noFoot isFoot after ih =>
    obtain ⟨hhead, htail⟩ := List.pairwise_cons.1 hl
    obtain ⟨-, hfoot, -⟩ := List.pairwise_append.1 htail
    have hfunction : (functionNote? head.1 name).toList.filter Declaration.isFunction =
        (functionNote? head.1 name).toList := by
      rw [List.filter_eq_self]
      intro d hd
      exact (functionNote?_eq_some (by simpa using hd)).2
    have hlater : ∀ d ∈ notes.filter Declaration.isFunction, head.1 ≤ d.line := by
      intro d hd
      exact after.le_line (fun s hs => hhead s (by simp [hs])) d (List.mem_of_mem_filter hd)
    rw [List.filter_append, hbody, List.nil_append, List.filter_append, hfunction,
      sorted_cons_iff (fun d hd => (functionNote?_eq_some hd).1) hlater]
    exact ih (List.pairwise_cons.1 hfoot).2
  | @unclosed head name body isHead noFoot =>
    rw [hbody]
    exact .nil

end Noted

/-! ## Main results -/

/-- **Order of the declarations.** The declarations of a program are in the order of its source as
long as no function has a declaration inside it on a later line than its head. The notes of
variables and raw texts are always in that order among themselves, and so are those of functions. -/
theorem declarations_in_source_order_iff (source : String) :
    ((compile source).declarations.Pairwise (fun d e => d.line ≤ e.line) ↔
      DeclaresOutside (statements source)) ∧
    ((compile source).declarations.filter fun d => !d.isFunction) =
      (statements source).filterMap note? ∧
    ((compile source).declarations.filter Declaration.isFunction).Pairwise
      fun d e => d.line ≤ e.line := by
  have hnoted := noted_compile source
  have hlines := statements_ascending source
  exact ⟨hnoted.sorted_iff hlines, hnoted.filter_others, hnoted.filter_functions_sorted hlines⟩

/-- A variable declared inside a function comes before the function. -/
theorem declarations_out_of_order :
    (compile "declare function f\ndeclare int x\nend").declarations =
        [.var 2 ⟨"int", "x", none⟩, .function 1 "f"] ∧
      ¬ (compile "declare function f\ndeclare int x\nend").declarations.Pairwise
        fun d e => d.line ≤ e.line := by
  have hnotes : (compile "declare function f\ndeclare int x\nend").declarations =
      [.var 2 ⟨"int", "x", none⟩, .function 1 "f"] := by decide +kernel
  rw [hnotes]
  exact ⟨rfl, by decide⟩

/-- **Heads and notes.** A block is opened by `declare` and `function` with any number of blanks
between them, none included, at the end of the text or before a blank. Every other text that starts
with `declare` is noted: it opens no block and leaves the rest of the builder as it is. -/
theorem declarations_open_block_or_are_noted (text : String) :
    (∀ name, functionDeclaration? text = some name ↔
      ∃ gap tail : List Char, (∀ c ∈ gap, isBlank c = true) ∧
        text.toList = declareWord ++ gap ++ functionWord ++ tail ∧
        (∀ c ∈ tail.head?, isBlank c = true) ∧ name = String.ofList (trim tail)) ∧
    (declareWord <+: text.toList → functionDeclaration? text = none →
      (∀ (b : Builder) (line : Nat), b.statement line text =
        { b with declarations := b.declarations.push (.note line text) }) ∧
      ∀ (source : String) (line : Nat), (line, text) ∈ statements source →
        .note line text ∈ (compile source).declarations) := by
  refine ⟨fun name => functionDeclaration?_eq_some_iff, ?_⟩
  intro hdeclares hhead
  refine ⟨Builder.statement_declares hdeclares hhead, ?_⟩
  intro source line hmem
  have hnote : note? (line, text) = some (.note line text) := if_pos ⟨hdeclares, hhead⟩
  have hothers := List.mem_filterMap.2 ⟨_, hmem, hnote⟩
  rw [← (noted_compile source).filter_others] at hothers
  exact List.mem_of_mem_filter hothers

/-- A longer word than `function` declares a variable, also behind a quote that is left open. -/
theorem declarations_open_block_or_are_noted_functional :
    declareWord <+: "declare functional x".toList ∧
      functionDeclaration? "declare functional x" = none ∧
      (2, "declare functional x") ∈ statements "print \"a\ndeclare functional x; end" ∧
      .note 2 "declare functional x" ∈
        (compile "print \"a\ndeclare functional x; end").declarations := by
  have hdeclares : declareWord <+: "declare functional x".toList := by decide
  have hhead : functionDeclaration? "declare functional x" = none := by decide
  have hmem : (2, "declare functional x") ∈
      statements "print \"a\ndeclare functional x; end" := by decide +kernel
  generalize "print \"a\ndeclare functional x; end" = source at hmem ⊢
  have hnoted := (declarations_open_block_or_are_noted "declare functional x").2 hdeclares hhead
  exact ⟨hdeclares, hhead, hmem, hnoted.2 source 2 hmem⟩

/-- The two words may be written as one. -/
theorem joined_words_open_block :
    functionDeclaration? "declarefunction f" = some "f" ∧
      ¬ ∃ gap tail : List Char, gap ≠ [] ∧ (∀ c ∈ gap, isBlank c = true) ∧
        "declarefunction f".toList = declareWord ++ gap ++ functionWord ++ tail := by
  refine ⟨by decide, ?_⟩
  rintro ⟨gap, tail, hne, hgap, htext⟩
  obtain ⟨c, gap, rfl⟩ := List.exists_cons_of_ne_nil hne
  have hwords : "declarefunction f".toList = declareWord ++ 'f' :: "unction f".toList := by decide
  rw [hwords, List.append_assoc, List.append_assoc] at htext
  obtain ⟨rfl, -⟩ := List.cons.inj (List.append_cancel_left htext)
  have hblank := hgap 'f' List.mem_cons_self
  revert hblank
  decide

end LineAsm
