import LineAsm.Proofs.Bodies
import LineAsm.Proofs.Conditionals
import LineAsm.Proofs.Reload

/-!
# Statements of two words

Two words of letters with blanks between them make an assembly statement, also where one of them is
a keyword: `if` keeps the assembly reading as long as its own form does not fit. Of two words it
fits one pair, `if` and `then`, and only if there are three blanks or more between them. Then the
blanks inside are taken for the condition.

Results:
* `conditional?_word`: where the form of a conditional fits a single word after `if`.
* `WordPair.shape`: the shape of two words.
* `compile_lone`: a source of one statement on one line.
* `two_words_are_assembly_unless_if_then`: what follows for a line of two words.
-/
namespace LineAsm

open Text

/-! ## One word after `if` -/

/-- `then` as the last word of a text is the whole of what is left. -/
theorem thenTail?_word {word : List Char} (h : ∀ c ∈ word, isBlank c = false) :
    thenTail? word = if word = thenWord then some none else none := by
  unfold thenTail?
  cases hstrip : thenWord.isPrefixOf? word with
  | none =>
    rw [if_neg]
    rintro rfl
    rw [List.isPrefixOf?_eq_some_iff_append_eq.2 (List.append_nil _)] at hstrip
    cases hstrip
  | some rest =>
    rw [List.isPrefixOf?_eq_some_iff_append_eq] at hstrip
    cases rest with
    | nil => rw [if_pos (by simpa using hstrip.symm)]
    | cons c rest =>
      -- the letters go on after the keyword, so no body follows it
      have hc : isBlank c = false := h c (by simp [← hstrip])
      have hne : word ≠ thenWord := by
        intro heq
        simpa [heq] using congrArg List.length hstrip
      simp [if_neg hne, thenBody?, dropBlanks, hc]

/-- Where a single word follows `if`, only blanks can be the condition. -/
theorem conditional?_word {gap word : List Char} (hgap : gap ≠ [])
    (hblank : ∀ c ∈ gap, isBlank c = true) (hline : '\n' ∉ gap) (hne : word ≠ [])
    (hword : ∀ c ∈ word, isBlank c = false) :
    conditional? (ifWord ++ (gap ++ word)) =
      if word = thenWord ∧ 3 ≤ gap.length then some ([], none) else none := by
  have hstop : ∀ c ∈ word.head?, isBlank c = false :=
    fun c hc => hword c (List.mem_of_mem_head? hc)
  have hdrop : dropBlanks (gap ++ word) = word := dropWhile_run hblank hstop
  have hcondition : shortestCondition? word = none := by
    have hrun := shortestCondition?_run hne hword []
    rwa [List.append_nil] at hrun
  -- a blank inside is one that is neither the first nor the last
  have hinside : gap.tail.dropLast.any (· ≠ '\n') = true ↔ 3 ≤ gap.length := by
    have hlength : gap.tail.dropLast.length = gap.length - 2 := by simp; omega
    rw [List.any_eq_true]
    constructor
    · rintro ⟨c, hc, -⟩
      have hpos := List.length_pos_of_mem hc
      omega
    · intro hlong
      obtain ⟨c, hc⟩ := List.exists_mem_of_length_pos (l := gap.tail.dropLast) (by omega)
      have hmem : c ∈ gap := List.mem_of_mem_tail (List.dropLast_subset _ hc)
      refine ⟨c, hc, decide_eq_true ?_⟩
      rintro rfl
      exact hline hmem
  unfold conditional?
  simp only [List.isPrefixOf?_eq_some_iff_append_eq.2 rfl, takeWhile_run hblank hstop, hdrop,
    if_neg hgap, hcondition, thenTail?_word hword, hinside]
  by_cases hthen : word = thenWord <;> by_cases hlong : 3 ≤ gap.length <;> simp [hthen, hlong]

/-! ## Two words -/

/-- Two words of letters with blanks between them, on one line. -/
structure WordPair (first gap second : List Char) : Prop where
  first_ne_nil : first ≠ []
  first_letters : ∀ c ∈ first, c.isAlpha = true
  gap_ne_nil : gap ≠ []
  gap_blank : ∀ c ∈ gap, isBlank c = true
  gap_oneLine : '\n' ∉ gap
  second_ne_nil : second ≠ []
  second_letters : ∀ c ∈ second, c.isAlpha = true

theorem isToken_of_letters {word : List Char} (hne : word ≠ [])
    (hletters : ∀ c ∈ word, c.isAlpha = true) : IsToken word :=
  ⟨hne, fun c hc => isTokenChar_of_isAlpha (hletters c hc)⟩

namespace WordPair

variable {first gap second : List Char}

theorem if_then (hne : gap ≠ []) (hblank : gap.all isBlank = true) (hline : '\n' ∉ gap) :
    WordPair ifWord gap thenWord where
  first_ne_nil := by decide
  first_letters := List.all_eq_true.1 (by decide)
  gap_ne_nil := hne
  gap_blank := List.all_eq_true.1 hblank
  gap_oneLine := hline
  second_ne_nil := by decide
  second_letters := List.all_eq_true.1 (by decide)

/-- **The shape of two words.** -/
theorem shape (h : WordPair first gap second) (hdeclare : ¬ declareWord <+: first)
    (hprint : first ≠ printWord) :
    Shape.of (first ++ (gap ++ second)) =
      if first = ifWord ∧ second = thenWord ∧ 3 ≤ gap.length then .conditional [] none
      else .assembly first second := by
  have hsecond := isToken_of_letters h.second_ne_nil h.second_letters
  have hhead : ∀ c ∈ (gap ++ second).head?, isBlank c = true := by
    obtain ⟨d, gap, rfl⟩ := List.exists_cons_of_ne_nil h.gap_ne_nil
    rintro _ ⟨⟩
    exact h.gap_blank d List.mem_cons_self
  have hprefix : ¬ declareWord.isPrefixOf (first ++ (gap ++ second)) = true := by
    rwa [List.isPrefixOf_iff_prefix, declareWord_prefix_iff hhead]
  unfold Shape.of
  simp only [if_neg hprefix, if_neg hprint, assembly?_gap h.first_ne_nil h.first_letters
    h.gap_ne_nil h.gap_blank hsecond.isRest]
  by_cases hif : first = ifWord
  · subst hif
    rw [conditional?_word h.gap_ne_nil h.gap_blank h.gap_oneLine h.second_ne_nil hsecond.not_blank]
    by_cases hthen : second = thenWord ∧ 3 ≤ gap.length <;> simp [hthen]
  · simp [hif]

theorem isStatement (h : WordPair first gap second) :
    IsStatement (first ++ (gap ++ second)) ∧ '\n' ∉ first ++ (gap ++ second) := by
  have hfirst := isToken_of_letters h.first_ne_nil h.first_letters
  have hletter : StartsWithLetter (first ++ gap) := by
    obtain ⟨c, cs, rfl⟩ := List.exists_cons_of_ne_nil h.first_ne_nil
    exact ⟨c, cs ++ gap, rfl, h.first_letters c List.mem_cons_self⟩
  have hsemi : ';' ∉ first ++ gap := by
    rw [List.mem_append, not_or]
    exact ⟨fun hmem => absurd (hfirst.2 _ hmem) (by decide),
      fun hmem => absurd (h.gap_blank _ hmem) (by decide)⟩
  have hline : '\n' ∉ first ++ gap := by
    rw [List.mem_append, not_or]
    exact ⟨fun hmem => absurd (hfirst.2 _ hmem) (by decide), h.gap_oneLine⟩
  rw [← List.append_assoc]
  exact isStatement_token hletter hsemi hline
    (isToken_of_letters h.second_ne_nil h.second_letters)

end WordPair

/-- **One line.** An executable statement that is a source of its own is compiled to one instruction
on line 1 with its text. -/
theorem compile_lone {text : String} (h : IsStatement text.toList) (hline : '\n' ∉ text.toList)
    (hshape : (Shape.of text.toList).isExecutable = true) :
    ∃ statement : Statement, statement.text = text ∧
      compile text = ⟨[⟨1, statement⟩], ∅, [], []⟩ := by
  have hstatements : statements text = [(1, text)] := by
    have hlines : ∀ line ∈ [text], IsStatement line.toList ∧ '\n' ∉ line.toList := by
      intro line hmem
      rw [List.mem_singleton.1 hmem]
      exact ⟨h, hline⟩
    simpa using statements_intercalate hlines
  have hsome := instruction?_isSome (1, text)
  rw [hshape, Option.isSome_iff_exists] at hsome
  obtain ⟨i, hi⟩ := hsome
  obtain ⟨statement, hdecode, rfl⟩ := Option.map_eq_some_iff.1 hi
  have hexecutable : IsExecutable (statements text) := by
    intro s hs
    rw [hstatements, List.mem_singleton] at hs
    exact ⟨statement, hs ▸ hdecode⟩
  refine ⟨statement, Shape.text_of_decode hdecode, ?_⟩
  rw [compile_executable hexecutable, hstatements]
  simp [hi]

/-- **Two words.** Two words of letters, the first of which neither starts with `declare` nor is
`print`, are an assembly statement, except for `if` and `then` with three blanks or more between
them: these are a conditional with a blank condition. In any case the line alone is compiled to one
instruction with its text, and nothing is reported. -/
theorem two_words_are_assembly_unless_if_then (first gap second : List Char)
    (h : WordPair first gap second) (hdeclare : ¬ declareWord <+: first)
    (hprint : first ≠ printWord) :
    Shape.of (first ++ (gap ++ second)) =
      (if first = ifWord ∧ second = thenWord ∧ 3 ≤ gap.length then .conditional [] none
      else .assembly first second) ∧
    ∃ statement : Statement, statement.text = String.ofList (first ++ (gap ++ second)) ∧
      compile (String.ofList (first ++ (gap ++ second))) = ⟨[⟨1, statement⟩], ∅, [], []⟩ := by
  have hshape := h.shape hdeclare hprint
  obtain ⟨hstatement, hline⟩ := h.isStatement
  refine ⟨hshape, compile_lone ?_ ?_ ?_⟩
  · rwa [String.toList_ofList]
  · rwa [String.toList_ofList]
  · rw [String.toList_ofList, hshape]
    split <;> rfl

/-- With two blanks between them, `if` and `then` are an assembly statement. -/
theorem two_words_are_assembly_unless_if_then_two_blanks :
    WordPair ifWord [' ', '\t'] thenWord ∧ ¬ declareWord <+: ifWord ∧ ifWord ≠ printWord ∧
      Shape.of "if \tthen".toList = .assembly ifWord thenWord ∧
      ∃ statement : Statement, statement.text = "if \tthen" ∧
        compile "if \tthen" = ⟨[⟨1, statement⟩], ∅, [], []⟩ := by
  have hpair : WordPair ifWord [' ', '\t'] thenWord := .if_then (by decide) (by decide) (by decide)
  have hdeclare : ¬ declareWord <+: ifWord := by decide
  have hprint : ifWord ≠ printWord := by decide
  obtain ⟨hshape, hcompile⟩ :=
    two_words_are_assembly_unless_if_then ifWord [' ', '\t'] thenWord hpair hdeclare hprint
  exact ⟨hpair, hdeclare, hprint, hshape, hcompile⟩

/-- With three blanks between them, the one in the middle is taken for a condition. -/
theorem if_then_around_blanks :
    WordPair ifWord [' ', ' ', ' '] thenWord ∧ ¬ declareWord <+: ifWord ∧ ifWord ≠ printWord ∧
      Shape.of "if   then".toList = .conditional [] none := by
  refine ⟨.if_then ?_ ?_ ?_, ?_, ?_, ?_⟩ <;> decide

end LineAsm
