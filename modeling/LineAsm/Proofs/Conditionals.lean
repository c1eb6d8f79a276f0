import LineAsm.Proofs.Spelling

/-!
# The spelling of conditionals

A condition is cut off its text before it is read: it ends at the first place where blanks, the word
`then` and a tail follow. The characters of an operand are never blank, so in the text of a
condition such a place can only stand after an operand or after a comparison.

* After the last operand it is the right place.
* After the left operand a comparison follows, which is no `then`.
* After a comparison the right operand follows, and this may be a register called `then`.

Results:
* `shortestCondition?_render`: the cut is made after the condition, unless its right operand is
  `then`.
* `Condition.decode_spelled`: such conditionals are read back, with their body or without one.
* `Condition.decode_then`: a comparison with `then` on its right loses that operand to the keyword,
  and what is left of it is malformed.
-/
namespace LineAsm

open Text

/-! ## Where a condition ends -/

/-- Inside a run without blanks no condition ends. -/
theorem shortestCondition?_run {run : List Char} (hne : run ≠ [])
    (hrun : ∀ c ∈ run, isBlank c = false) (rest : List Char) :
    shortestCondition? (run ++ rest) =
      match conditionTail? rest with
      | some body => some (run, body)
      | none =>
        (shortestCondition? rest).map fun (condition, body) => (run ++ condition, body) := by
  have hline : ∀ c ∈ run, c ≠ '\n' := by
    rintro c hc rfl
    exact absurd (hrun _ hc) (by decide)
  induction run with
  | nil => exact absurd rfl hne
  | cons c run ih =>
    have hc := hrun c List.mem_cons_self
    rw [List.cons_append, shortestCondition?, if_neg (hline c List.mem_cons_self), hc]
    simp only [Bool.false_eq_true, if_false]
    cases run with
    | nil => rfl
    | cons d run =>
      have hd := hrun d (List.mem_cons_of_mem _ List.mem_cons_self)
      have hnone : conditionTail? (d :: run ++ rest) = none := by
        simp [conditionTail?, hd]
      rw [hnone, ih (by simp) (fun e he => hrun e (List.mem_cons_of_mem _ he))
        (fun e he => hline e (List.mem_cons_of_mem _ he))]
      cases conditionTail? rest with
      | some body => rfl
      | none => cases shortestCondition? rest <;> rfl

/-- No condition ends in a blank. -/
theorem shortestCondition?_blank (rest : List Char) :
    shortestCondition? (' ' :: rest) =
      (shortestCondition? rest).map fun (condition, body) => (' ' :: condition, body) := rfl

/-- After one blank it is the text from there that decides. -/
theorem conditionTail?_cons {rest : List Char} (hrest : ∀ c ∈ rest.head?, isBlank c = false) :
    conditionTail? (' ' :: rest) = thenTail? rest := by
  unfold conditionTail?
  rw [takeWhile_blank_cons hrest, dropBlanks_blank_cons hrest]
  rfl

theorem conditionTail?_symbol (cmp : Comparison) (rest : List Char) :
    conditionTail? (' ' :: (cmp.symbol.toList ++ rest)) = none := by
  cases cmp <;> rfl

/-- Another operand than `then` is not taken for the keyword, even if it starts like it. -/
theorem conditionTail?_token {cs : List Char} (hcs : IsToken cs) (hne : cs ≠ thenWord)
    (rest : List Char) : conditionTail? (' ' :: (cs ++ ' ' :: rest)) = none := by
  rw [conditionTail?_cons (hcs.head_not_blank _)]
  unfold thenTail?
  cases hstrip : thenWord.isPrefixOf? (cs ++ ' ' :: rest) with
  | none => rfl
  | some after =>
    rw [List.isPrefixOf?_eq_some_iff_append_eq] at hstrip
    rcases List.append_eq_append_iff.1 hstrip.symm with ⟨more, hthen, hmore⟩ | ⟨more, hlong, hafter⟩
    · -- the operand is shorter: the blank after it would be a letter of the keyword
      cases more with
      | nil => exact absurd (by simpa using hthen.symm) hne
      | cons d more =>
        cases (List.cons.inj hmore).1
        have hmem : ' ' ∈ thenWord := by simp [hthen]
        exact absurd hmem (by decide)
    · -- the operand is longer: no blank follows the keyword
      cases more with
      | nil => exact absurd (by simpa using hlong) hne
      | cons d more =>
        have hd : isBlank d = false := hcs.not_blank d (by simp [hlong])
        subst hafter
        simp [thenBody?, dropBlanks, hd]

/-- `then`, a blank and a text without outer blanks. -/
theorem conditionTail?_body {body : List Char} (hbody : IsRest body) (htrim : trim body = body) :
    conditionTail? (' ' :: (thenWord ++ ' ' :: body)) = some (some body) := by
  have hread : thenBody? (' ' :: body) = some body := by
    unfold thenBody?
    simp only [takeWhile_blank_cons hbody.head, dropBlanks_blank_cons hbody.head]
    obtain ⟨c, cs, rfl⟩ := List.exists_cons_of_ne_nil hbody.ne_nil
    simp [hbody.oneLine, htrim]
  have hthen : IsToken thenWord := isToken_of_isKey (by decide)
  rw [conditionTail?_cons (hthen.head_not_blank _)]
  show (thenBody? (' ' :: body)).map some = _
  rw [hread]
  rfl

/-- A condition that starts with an operand and a comparison ends after the comparison or later. -/
theorem shortestCondition?_compare {lhs : List Char} (hl : IsToken lhs) (cmp : Comparison)
    (rest : List Char) :
    shortestCondition? (lhs ++ ' ' :: (cmp.symbol.toList ++ ' ' :: rest)) =
      match conditionTail? (' ' :: rest) with
      | some body => some (lhs ++ ' ' :: cmp.symbol.toList, body)
      | none => (shortestCondition? rest).map fun (condition, body) =>
          (lhs ++ ' ' :: (cmp.symbol.toList ++ ' ' :: condition), body) := by
  have hsymbol : cmp.symbol.toList ≠ [] ∧ cmp.symbol.toList.all (!isBlank ·) = true := by
    cases cmp <;> decide
  have hblank : ∀ c ∈ cmp.symbol.toList, isBlank c = false := fun c hc => by
    simpa using List.all_eq_true.1 hsymbol.2 c hc
  rw [shortestCondition?_run hl.1 hl.not_blank, conditionTail?_symbol, shortestCondition?_blank,
    shortestCondition?_run hsymbol.1 hblank, shortestCondition?_blank]
  cases conditionTail? (' ' :: rest) with
  | some body => rfl
  | none => cases shortestCondition? rest <;> rfl

/-- The operand that is written like the keyword. -/
def thenOperand : Operand := .place (.register "then")

theorem Operand.eq_thenOperand {x : Operand} (h : x.isGrammatical = true)
    (hx : x.render.toList = thenWord) : x = thenOperand := by
  have hread := Operand.parse_render h
  rw [hx] at hread
  exact (Except.ok.inj hread).symm

/-- **The cut.** A condition ends where its text ends, unless its right operand is `then`. -/
theorem shortestCondition?_render {c : Condition} (hc : c.isGrammatical = true)
    (hthen : ∀ lhs cmp, c ≠ .compare lhs cmp thenOperand) {tail : List Char}
    {body : Option (List Char)} (htail : conditionTail? (' ' :: (thenWord ++ tail)) = some body) :
    shortestCondition? (c.render.toList ++ ' ' :: (thenWord ++ tail)) =
      some (c.render.toList, body) := by
  cases c with
  | nonzero x =>
    have hx := Operand.isToken_render hc
    unfold Condition.render
    rw [shortestCondition?_run hx.1 hx.not_blank, htail]
  | compare lhs cmp rhs =>
    simp only [Condition.isGrammatical, Bool.and_eq_true] at hc
    have hl := Operand.isToken_render hc.1
    have hr := Operand.isToken_render hc.2
    have hrhs : rhs.render.toList ≠ thenWord := by
      intro h
      exact hthen lhs cmp (by rw [Operand.eq_thenOperand hc.2 h])
    rw [Condition.toList_render_compare]
    simp only [List.append_assoc, List.cons_append]
    rw [shortestCondition?_compare hl, conditionTail?_token hr hrhs,
      shortestCondition?_run hr.1 hr.not_blank, htail]
    rfl

/-! ## Conditionals -/

/-- What may follow `then`: nothing, or a blank and a body. -/
inductive IsThenTail : List Char → Option Statement → Prop
  | bare : IsThenTail [] none
  | body {text : String} {s : Statement} (h : IsBody text s) :
      IsThenTail (' ' :: text.toList) (some s)

/-- The conditional on a condition, with its body or without one. -/
def Condition.guard (c : Condition) (text : String) : Option Statement → Statement
  | none => .simple text (.idle c)
  | some s => .block text (.ifTrue c) s

theorem isRest_thenWord : IsRest thenWord := (isToken_of_isKey (by decide)).isRest

namespace IsThenTail

variable {tail : List Char} {guarded : Option Statement}

theorem decodeConditional (h : IsThenTail tail guarded) :
    ∃ body, conditionTail? (' ' :: (thenWord ++ tail)) = some body ∧
      ∀ {condition : List Char} {c : Condition}, Condition.parse condition = .ok c → ∀ text,
        decodeConditional (decodeNested maxNesting) text condition body =
          .ok (c.guard text guarded) := by
  cases h with
  | bare =>
    refine ⟨none, rfl, ?_⟩
    intro condition c hc text
    simp only [LineAsm.decodeConditional, hc]
    rfl
  | @body body s h =>
    refine ⟨some body.toList, conditionTail?_body h.isBodyText.isRest h.trimmed, ?_⟩
    intro condition c hc text
    simp only [LineAsm.decodeConditional, hc, h.decodeNested]
    rfl

/-- Together with its tail, `then` could stand as a body itself. -/
theorem isRest (h : IsThenTail tail guarded) :
    IsRest (thenWord ++ tail) ∧ trim (thenWord ++ tail) = thenWord ++ tail := by
  cases h with
  | bare =>
    rw [List.append_nil]
    exact ⟨isRest_thenWord, by decide⟩
  | body h =>
    refine ⟨isRest_thenWord.append ?_, h.isBodyText.trim_append isRest_thenWord⟩
    simp [isOneLine_iff, isOneLine_iff.1 h.oneLine]

end IsThenTail

theorem Shape.of_if {rest condition : List Char} {body : Option (List Char)}
    (hrest : ∀ c ∈ rest.head?, isBlank c = false)
    (h : shortestCondition? rest = some (condition, body)) :
    Shape.of (ifWord ++ ' ' :: rest) = .conditional condition body := by
  have hif : conditional? (ifWord ++ ' ' :: rest) = some (condition, body) := by
    unfold conditional?
    simp only [List.isPrefixOf?_eq_some_iff_append_eq.2 rfl, takeWhile_blank_cons hrest,
      dropBlanks_blank_cons hrest, h]
    rfl
  unfold Shape.of
  rw [isPrefixOf_declareWord (by decide), if_neg (by decide)]
  rcases assembly?_mnemonic (show ifWord.all isMnemonicChar = true by decide) rest
    with hasm | ⟨after, hasm⟩
  · simp only [hasm, keywordShape, hif]
  · have hne : ifWord ≠ printWord := by decide
    simp only [hasm, hne, if_false, if_true, hif]

namespace Condition

variable {c : Condition} {tail : List Char} {guarded : Option Statement} {text : String}

/-- **Conditionals.** They are read back, unless the right operand of the condition is `then`. -/
theorem decode_spelled (hc : c.isGrammatical = true)
    (hthen : ∀ lhs cmp, c ≠ .compare lhs cmp thenOperand) (htail : IsThenTail tail guarded)
    (htext : text.toList = ifWord ++ ' ' :: (c.render.toList ++ ' ' :: (thenWord ++ tail))) :
    Statement.decode text = some (c.guard text guarded) := by
  obtain ⟨body, hbody, hdecode⟩ := htail.decodeConditional
  have hcut := shortestCondition?_render hc hthen hbody
  unfold Statement.decode
  rw [htext, Shape.of_if ((isRest_render hc).head_append _) hcut]
  simp only [Shape.decode, hdecode (parse_render hc)]
  rfl

/-- A comparison without its right operand is no condition. -/
theorem parse_compare_nil {lhs : List Char} (hl : IsToken lhs) (cmp : Comparison) :
    Condition.parse (lhs ++ ' ' :: cmp.symbol.toList) =
      .error (.condition (String.ofList (lhs ++ ' ' :: cmp.symbol.toList))) := by
  have htrim : trim (lhs ++ ' ' :: cmp.symbol.toList) = lhs ++ ' ' :: cmp.symbol.toList := by
    refine trim_eq_self_iff.2 ⟨hl.head_not_blank _, ?_⟩
    cases cmp <;> simp [Comparison.symbol, List.getLast?_append, List.getLast?_cons] <;> decide
  have hstop := stops_cons (p := isOperandChar) (c := ' ') (by decide) cmp.symbol.toList
  have htokens : tokens? (lhs ++ ' ' :: cmp.symbol.toList) = none := by
    unfold tokens?
    simp only [takeWhile_run hl.operandChars hstop, dropWhile_run hl.operandChars hstop, hl.1,
      if_false]
    cases cmp <;> rfl
  unfold Condition.parse
  rw [htrim, htokens]

/-- The right operand `then` is taken for the keyword, and the condition without it is malformed. -/
theorem decode_then {lhs : Operand} (hlhs : lhs.isGrammatical = true) (cmp : Comparison)
    (htail : IsThenTail tail guarded)
    (htext : text.toList = ifWord ++ ' ' ::
      ((compare lhs cmp thenOperand).render.toList ++ ' ' :: (thenWord ++ tail))) :
    Statement.decode text = some (.simple text (.fault (.malformed .conditional
      (.operand (.condition (lhs.render ++ " " ++ cmp.symbol)))))) := by
  have hl := Operand.isToken_render hlhs
  have hrender : (compare lhs cmp thenOperand).render.toList ++ ' ' :: (thenWord ++ tail) =
      lhs.render.toList ++ ' ' :: (cmp.symbol.toList ++ ' ' ::
        (thenWord ++ ' ' :: (thenWord ++ tail))) := by
    rw [toList_render_compare]
    simp only [List.append_assoc, List.cons_append]
    rfl
  have hcut : shortestCondition? ((compare lhs cmp thenOperand).render.toList ++ ' ' ::
      (thenWord ++ tail)) =
      some (lhs.render.toList ++ ' ' :: cmp.symbol.toList, some (thenWord ++ tail)) := by
    rw [hrender, shortestCondition?_compare hl, conditionTail?_body htail.isRest.1 htail.isRest.2]
  have hhead := hl.head_not_blank (' ' :: (cmp.symbol.toList ++ ' ' ::
    (thenWord ++ ' ' :: (thenWord ++ tail))))
  rw [← hrender] at hhead
  have hshown : String.ofList (lhs.render.toList ++ ' ' :: cmp.symbol.toList) =
      lhs.render ++ " " ++ cmp.symbol := by
    rw [← String.toList_inj]
    simp
  unfold Statement.decode
  rw [htext, Shape.of_if hhead hcut]
  simp only [Shape.decode, decodeConditional, parse_compare_nil hl, hshown]
  rfl

end Condition

/-! ## All conditionals -/

/-- **Conditionals are read back unless they compare with `then`.** Written from a grammatical
condition, with a body or without one, a conditional is decoded as what it was. The one exception is
a comparison with the register `then` on its right: that conditional is decoded as a fault, which
shows the condition without its right operand. -/
theorem decode_conditional_unless_then (c : Condition) (hc : c.isGrammatical = true) :
    ((∀ lhs cmp, c ≠ .compare lhs cmp thenOperand) →
      (∀ (body text : String) (s : Statement), IsBody body s →
        text = "if " ++ c.render ++ " then " ++ body →
        Statement.decode text = some (.block text (.ifTrue c) s)) ∧
      (∀ text : String, text = "if " ++ c.render ++ " then" →
        Statement.decode text = some (.simple text (.idle c)))) ∧
    (∀ lhs cmp, c = .compare lhs cmp thenOperand →
      (∀ (body text : String) (s : Statement), IsBody body s →
        text = "if " ++ c.render ++ " then " ++ body →
        Statement.decode text = some (.simple text (.fault (.malformed .conditional
          (.operand (.condition (lhs.render ++ " " ++ cmp.symbol))))))) ∧
      (∀ text : String, text = "if " ++ c.render ++ " then" →
        Statement.decode text = some (.simple text (.fault (.malformed .conditional
          (.operand (.condition (lhs.render ++ " " ++ cmp.symbol)))))))) := by
  have hwith : ∀ body text : String, text = "if " ++ c.render ++ " then " ++ body →
      text.toList =
        ifWord ++ ' ' :: (c.render.toList ++ ' ' :: (thenWord ++ ' ' :: body.toList)) := by
    rintro body _ rfl
    simp [ifWord, thenWord]
  have hbare : ∀ text : String, text = "if " ++ c.render ++ " then" →
      text.toList = ifWord ++ ' ' :: (c.render.toList ++ ' ' :: (thenWord ++ [])) := by
    rintro _ rfl
    simp [ifWord, thenWord]
  constructor
  · intro hthen
    constructor
    · intro body text s hbody htext
      exact Condition.decode_spelled hc hthen (.body hbody) (hwith body text htext)
    · intro text htext
      exact Condition.decode_spelled hc hthen .bare (hbare text htext)
  · rintro lhs cmp rfl
    simp only [Condition.isGrammatical, Bool.and_eq_true] at hc
    constructor
    · intro body text s hbody htext
      exact Condition.decode_then hc.1 cmp (.body hbody) (hwith body text htext)
    · intro text htext
      exact Condition.decode_then hc.1 cmp .bare (hbare text htext)

/-- A name that only starts like the keyword, the keyword on the left of a comparison or alone, and
the keyword on the right of one. -/
theorem decode_conditional_unless_then_print :
    Statement.decode "if then != then[0] then print x" =
      some (.block "if then != then[0] then print x"
        (.ifTrue (.compare thenOperand .ne (.place (.cell ⟨"then", .index (.literal 0)⟩))))
        (.simple "print x" (.print [.value (.place (.register "x"))]))) ∧
    Statement.decode "if then then" = some (.simple "if then then" (.idle (.nonzero thenOperand))) ∧
    Statement.decode "if x == then then print x" =
      some (.simple "if x == then then print x" (.fault (.malformed .conditional
        (.operand (.condition "x =="))))) := by
  have hbody : IsBody "print x" (.simple "print x" (.print [.value (.place (.register "x"))])) := by
    constructor <;> decide +kernel
  refine ⟨((decode_conditional_unless_then _ ?_).1 ?_).1 _ _ _ hbody ?_,
    ((decode_conditional_unless_then _ ?_).1 ?_).2 _ ?_,
    ((decode_conditional_unless_then (.compare (.place (.register "x")) .eq thenOperand) ?_).2
      _ _ rfl).1 _ _ _ hbody ?_⟩
  case refine_2 | refine_5 =>
    intro lhs cmp h
    cases h
  all_goals decide +kernel

/-- Not every conditional is read back. -/
theorem exists_conditional_not_read_back :
    ∃ (c : Condition) (body text : String) (s : Statement), c.isGrammatical = true ∧
      IsBody body s ∧ text = "if " ++ c.render ++ " then " ++ body ∧
      Statement.decode text ≠ some (.block text (.ifTrue c) s) := by
  refine ⟨.compare (.place (.register "x")) .eq thenOperand, "print x", _,
    .simple "print x" (.print [.value (.place (.register "x"))]), by decide, ?_, rfl, ?_⟩
  · constructor <;> decide +kernel
  · decide +kernel

end LineAsm
