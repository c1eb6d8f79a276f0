import LineAsm.Proofs.Nesting
import LineAsm.Proofs.Operands
import LineAsm.Proofs.Source

/-!
# The spelling of statements

Every operation, every print statement and every loop has a canonical text, put together from the
texts of its operands, of its condition and of its body. The decoder is no inverse of one printer:
it cuts a text by its outer form first and reads the parts afterwards. Here each cut is shown to be
made where the text was put together.

Results:
* `Shape.of_word`: a text that starts with a word and a blank is an assembly statement.
* `Action.decode_spelled`: operations are read back, in any mix of upper and lower case.
* `decode_print_spelled`: print statements are read back.
* `Header.read_spelled`: loops are read back, in front of any body.
* `Header.decode_spelled`: their bodies are read as they would be read alone.
-/
namespace LineAsm

open Text

/-! ## Upper and lower case -/

/-- Only letters have a lower case of their own. -/
theorem toLower_eq_or_isAlpha (c : Char) : c.toLower = c ∨ c.isAlpha = true := by
  unfold Char.toLower
  split
  · rename_i h
    have hupper : c.isUpper = true := decide_eq_true h
    right
    show (c.isUpper || c.isLower) = true
    rw [hupper, Bool.true_or]
  · exact .inl rfl

/-- A class that holds all letters is left by no character when it changes its case. -/
theorem forall_of_lowerCase {p : Char → Bool} (hp : ∀ c, c.isAlpha = true → p c = true)
    {word : List Char} {name : String} (h : lowerCase word = name)
    (hname : name.toList.all p = true) : ∀ c ∈ word, p c = true := by
  subst h
  intro c hc
  rcases toLower_eq_or_isAlpha c with hlower | hletter
  · have hmem : c.toLower ∈ (lowerCase word).toList := by
      simpa [lowerCase] using ⟨c, hc, rfl⟩
    rw [← hlower]
    exact List.all_eq_true.1 hname _ hmem
  · exact hp c hletter

theorem length_of_lowerCase {word : List Char} {name : String} (h : lowerCase word = name) :
    word.length = name.toList.length := by
  subst h
  simp [lowerCase]

theorem isTokenChar_of_isAlpha {c : Char} (h : c.isAlpha = true) : isTokenChar c = true := by
  simp [isTokenChar, isKeyChar, Char.isAlphanum, h]

/-! ## Lines -/

theorem isOneLine_iff {cs : List Char} : isOneLine cs = true ↔ '\n' ∉ cs := by
  simp [isOneLine]

theorem isOneLine_append {cs ds : List Char} :
    isOneLine (cs ++ ds) = true ↔ isOneLine cs = true ∧ isOneLine ds = true := by
  simp [isOneLine_iff]

/-- Without blanks there is no end of a line. -/
theorem isOneLine_of_not_blank {cs : List Char} (h : ∀ c ∈ cs, isBlank c = false) :
    isOneLine cs = true := by
  rw [isOneLine_iff]
  intro hmem
  exact absurd (h _ hmem) (by decide)

/-! ## Words in front of a text -/

/-- A word that makes a text an assembly statement: letters, but neither `print` nor `if`, and too
short for `declare`. -/
structure IsCommandWord (word : List Char) : Prop where
  ne_nil : word ≠ []
  letters : ∀ c ∈ word, c.isAlpha = true
  short : word.length < declareWord.length
  ne_print : word ≠ printWord
  ne_if : word ≠ ifWord

/-- A text after a word: it starts where the blanks end, and it is on one line. -/
structure IsRest (rest : List Char) : Prop where
  ne_nil : rest ≠ []
  head : ∀ c ∈ rest.head?, isBlank c = false
  oneLine : isOneLine rest = true

/-- What a blank divides from a word does not make it start with `declare`. -/
theorem declareWord_prefix_iff {word rest : List Char}
    (hrest : ∀ c ∈ rest.head?, isBlank c = true) :
    declareWord <+: word ++ rest ↔ declareWord <+: word := by
  refine ⟨fun hdeclare => ?_, fun hdeclare => hdeclare.trans (List.prefix_append _ _)⟩
  rcases List.prefix_or_prefix_of_prefix hdeclare (List.prefix_append word rest)
    with hword | ⟨more, hmore⟩
  · exact hword
  · cases more with
    | nil => exact ⟨[], by simpa using hmore.symm⟩
    | cons c more =>
      -- the blank would be a letter of the keyword
      rw [← hmore, List.prefix_append_right_inj] at hdeclare
      obtain ⟨after, rfl⟩ := hdeclare
      have hletters : declareWord.all (!isBlank ·) = true := by decide
      have hc := List.all_eq_true.1 hletters c (by simp [← hmore])
      rw [hrest c rfl] at hc
      cases hc

theorem isPrefixOf_declareWord {word : List Char} (hshort : word.length < declareWord.length)
    (rest : List Char) : declareWord.isPrefixOf (word ++ ' ' :: rest) = false := by
  have hblank : ∀ c ∈ (' ' :: rest).head?, isBlank c = true := by
    rintro _ ⟨⟩
    decide
  rw [Bool.eq_false_iff]
  intro hdeclare
  rw [List.isPrefixOf_iff_prefix, declareWord_prefix_iff hblank] at hdeclare
  exact absurd hdeclare.length_le (Nat.not_le.2 hshort)

theorem isMnemonicChar_of_isBlank {c : Char} (h : isBlank c = true) : isMnemonicChar c = false := by
  rw [Bool.eq_false_iff]
  intro hc
  simp only [isMnemonicChar, Bool.or_eq_true, beq_iff_eq] at hc
  rcases hc with hc | rfl
  · rw [isBlank_of_isOperandChar (isOperandChar_of_isTokenChar (isTokenChar_of_isAlpha hc))] at h
    cases h
  · exact absurd h (by decide)

/-- A word, blanks and a rest. -/
theorem assembly?_gap {word gap rest : List Char} (hne : word ≠ [])
    (hletters : ∀ c ∈ word, c.isAlpha = true) (hgap : gap ≠ [])
    (hblank : ∀ c ∈ gap, isBlank c = true) (hrest : IsRest rest) :
    assembly? (word ++ (gap ++ rest)) = some (word, rest) := by
  have hword : ∀ c ∈ word, isMnemonicChar c = true := by
    intro c hc
    simp [isMnemonicChar, hletters c hc]
  have hstop : ∀ c ∈ (gap ++ rest).head?, isMnemonicChar c = false := by
    obtain ⟨d, gap, rfl⟩ := List.exists_cons_of_ne_nil hgap
    exact stops_cons (isMnemonicChar_of_isBlank (hblank d List.mem_cons_self)) _
  have hdrop : dropBlanks (gap ++ rest) = rest := dropWhile_run hblank hrest.head
  unfold assembly?
  simp only [takeWhile_run hword hstop, dropWhile_run hword hstop,
    takeWhile_run hblank hrest.head, hdrop]
  obtain ⟨c, cs, rfl⟩ := List.exists_cons_of_ne_nil hne
  simp only
  rw [if_pos ⟨hletters c List.mem_cons_self, hgap, hrest.ne_nil, hrest.oneLine⟩]

theorem assembly?_word {word rest : List Char} (hne : word ≠ [])
    (hletters : ∀ c ∈ word, c.isAlpha = true) (hrest : IsRest rest) :
    assembly? (word ++ ' ' :: rest) = some (word, rest) := by
  have hblank : [' '].all isBlank = true := by decide
  exact assembly?_gap hne hletters (by simp) (List.all_eq_true.1 hblank) hrest

/-- The mnemonic of a text that starts with a word is this word, if the text has a mnemonic. -/
theorem assembly?_mnemonic {word : List Char} (hword : word.all isMnemonicChar = true)
    (rest : List Char) : assembly? (word ++ ' ' :: rest) = none ∨
      ∃ after, assembly? (word ++ ' ' :: rest) = some (word, after) := by
  have hrun := takeWhile_run (List.all_eq_true.1 hword) (stops_cons (c := ' ') (by decide) rest)
  cases hasm : assembly? (word ++ ' ' :: rest) with
  | none => exact .inl rfl
  | some parts =>
    obtain ⟨mnemonic, after⟩ := parts
    have hmnemonic : (word ++ ' ' :: rest).takeWhile isMnemonicChar = mnemonic := by
      unfold assembly? at hasm
      simp only at hasm
      split at hasm
      · cases hasm
      · split at hasm
        · cases hasm
          rfl
        · cases hasm
    exact .inr ⟨after, by rw [← hmnemonic, hrun]⟩

/-- **Assembly statements.** A command word, a blank and a rest. -/
theorem Shape.of_word {word rest : List Char} (hword : IsCommandWord word) (hrest : IsRest rest) :
    Shape.of (word ++ ' ' :: rest) = .assembly word rest := by
  unfold Shape.of
  simp only [isPrefixOf_declareWord hword.short, assembly?_word hword.ne_nil hword.letters hrest,
    hword.ne_print, hword.ne_if, if_false, Bool.false_eq_true]

/-- A word is a command word if its lower case is the name of one. -/
theorem isCommandWord_of_lowerCase {word : List Char} {name : String} (h : lowerCase word = name)
    (hne : name ≠ "") (hletters : name.toList.all Char.isAlpha = true)
    (hshort : name.toList.length < declareWord.length) (hprint : name ≠ "print")
    (hif : name ≠ "if") : IsCommandWord word where
  ne_nil := by
    rintro rfl
    exact hne h.symm
  letters := forall_of_lowerCase (fun _ hc => hc) h hletters
  short := by rwa [length_of_lowerCase h]
  ne_print := by
    rintro rfl
    exact hprint (h.symm.trans (by decide))
  ne_if := by
    rintro rfl
    exact hif (h.symm.trans (by decide))

/-! ## Operations -/

/-- The operation of an action and the texts of its operands. -/
def Action.operation? : Action → Option (Mnemonic × List String)
  | .mov dest src => some (.mov, [dest.render, src.render])
  | .arith op dest src => some (.arith op, [dest, src.render])
  | .push src => some (.push, [src.render])
  | .pop dest => some (.pop, [dest.render])
  | .call f => some (.call, [f])
  | .print _ | .idle _ | .fault _ => none

/-- The operands of an operation are grammatical, and a called function has a proper name. -/
def Action.isGrammatical : Action → Bool
  | .mov dest src => dest.isGrammatical && src.isGrammatical
  | .arith _ dest src => isName dest.toList && src.isGrammatical
  | .push src => src.isGrammatical
  | .pop dest => dest.isGrammatical
  | .call f => isFunctionName f.toList
  | .print _ | .idle _ | .fault _ => true

theorem isToken_of_isFunctionName {cs : List Char} (h : isFunctionName cs = true) : IsToken cs := by
  cases cs with
  | nil => cases h
  | cons c cs =>
    simp only [isFunctionName, Bool.and_eq_true, List.all_eq_true] at h
    refine ⟨by simp, ?_⟩
    intro d hd
    rcases List.mem_cons.1 hd with rfl | hd
    · exact isTokenChar_of_isKeyChar (isKeyChar_of_isNameChar (isNameChar_of_isNameStart h.1))
    · have hchar := h.2 d hd
      simp only [isFunctionNameChar, Bool.or_eq_true] at hchar
      rcases hchar with (hchar | hchar) | hchar <;> simp [isTokenChar, isKeyChar, hchar]

theorem Mnemonic.isCommandWord {m : Mnemonic} {word : List Char} (h : lowerCase word = m.name) :
    IsCommandWord word := by
  have hname : m.name ≠ "" ∧ m.name.toList.all Char.isAlpha = true ∧
      m.name.toList.length < declareWord.length ∧ m.name ≠ "print" ∧ m.name ≠ "if" := by
    cases m with
    | arith op => cases op <;> decide
    | _ => decide
  obtain ⟨hne, hletters, hshort, hprint, hif⟩ := hname
  exact isCommandWord_of_lowerCase h hne hletters hshort hprint hif

theorem Mnemonic.ofName?_name (m : Mnemonic) : ofName? m.name = some m ∧ m.name ≠ "loop" := by
  cases m with
  | arith op => cases op <;> decide
  | _ => decide

/-- The operands of an operation, with commas. -/
theorem isRest_intercalate {tokens : List (List Char)} (hne : tokens ≠ [])
    (h : ∀ t ∈ tokens, IsToken t) : IsRest (", ".toList.intercalate tokens) where
  ne_nil := by
    obtain ⟨t, ts, rfl⟩ := List.exists_cons_of_ne_nil hne
    simp [intercalate_cons, (h t List.mem_cons_self).1]
  head := forall_head?_intercalate (fun t ht => (h t ht).1) fun t ht => by
    simpa using (h t ht).head_not_blank []
  oneLine := by
    have hchars : ∀ c ∈ ", ".toList.intercalate tokens, c ≠ '\n' := by
      refine forall_mem_intercalate (by simp) ?_
      rintro t ht c hc rfl
      exact absurd ((h t ht).not_blank _ hc) (by decide)
    exact isOneLine_iff.2 fun hmem => hchars _ hmem rfl

namespace Action

variable {action : Action} {m : Mnemonic} {operands : List String}

theorem isToken_operands (haction : action.isGrammatical = true)
    (h : action.operation? = some (m, operands)) :
    operands ≠ [] ∧ ∀ t ∈ operands.map String.toList, IsToken t := by
  cases action with
  | print _ | idle _ | fault _ => cases h
  | mov dest src =>
    cases h
    simp only [isGrammatical, Bool.and_eq_true] at haction
    simp [(Place.toList_render haction.1).1, Operand.isToken_render haction.2]
  | arith op dest src =>
    cases h
    simp only [isGrammatical, Bool.and_eq_true] at haction
    simp [isToken_of_isKey (isKey_of_isName haction.1), Operand.isToken_render haction.2]
  | push src =>
    cases h
    simp [Operand.isToken_render haction]
  | pop dest =>
    cases h
    simp [(Place.toList_render haction).1]
  | call f =>
    cases h
    simp [isToken_of_isFunctionName haction]

theorem read_operands (haction : action.isGrammatical = true)
    (h : action.operation? = some (m, operands)) :
    m.read (operands.map String.toList) = .ok action := by
  cases action with
  | print _ | idle _ | fault _ => cases h
  | mov dest src =>
    cases h
    simp only [isGrammatical, Bool.and_eq_true] at haction
    simp only [List.map_cons, List.map_nil, Mnemonic.read, Place.parse_render haction.1,
      Operand.parse_render haction.2]
    rfl
  | arith op dest src =>
    cases h
    simp only [isGrammatical, Bool.and_eq_true] at haction
    have hdest : Place.parse dest.toList = .ok (.register dest) :=
      Place.parse_render (p := .register dest) haction.1
    simp only [List.map_cons, List.map_nil, Mnemonic.read, hdest, Operand.parse_render haction.2]
    rfl
  | push src =>
    cases h
    simp only [List.map_cons, List.map_nil, Mnemonic.read, Operand.parse_render haction]
    rfl
  | pop dest =>
    cases h
    simp only [List.map_cons, List.map_nil, Mnemonic.read, Place.parse_render haction]
    rfl
  | call f =>
    cases h
    simp only [isGrammatical] at haction
    simp [Mnemonic.read, haction]

/-- **Operations.** The mnemonic in any mix of cases, a blank, and the operands with commas. -/
theorem decode_spelled (haction : action.isGrammatical = true)
    (h : action.operation? = some (m, operands)) {word text : String}
    (hword : lowerCase word.toList = m.name)
    (htext : text = word ++ " " ++ ", ".intercalate operands) :
    Statement.decode text = some (.simple text action) := by
  obtain ⟨hne, htokens⟩ := isToken_operands haction h
  obtain ⟨hm, hloop⟩ := m.ofName?_name
  have hlist : text.toList =
      word.toList ++ ' ' :: ", ".toList.intercalate (operands.map String.toList) := by
    simp [htext]
  have hrest := isRest_intercalate (by simpa using hne) htokens
  have hwords := words_intercalate (fun t ht => (htokens t ht).1)
    (fun t ht => (htokens t ht).not_separator)
  unfold Statement.decode
  rw [hlist, Shape.of_word (Mnemonic.isCommandWord hword) hrest]
  simp only [Shape.decode, decodeAssembly, hword, hloop, if_false, hm, hwords,
    read_operands haction h]
  rfl

end Action

/-! ## Print statements -/

/-- The text of an item: texts stand in quotes. -/
def PrintItem.render : PrintItem → String
  | .text t => "\"" ++ t ++ "\""
  | .value x => x.render

/-- Texts hold no quotes, and operands are grammatical. -/
def PrintItem.isGrammatical : PrintItem → Bool
  | .text t => t.toList.all (· != '"')
  | .value x => x.isGrammatical

namespace PrintItem

variable {item : PrintItem}

/-- The text of an item starts and ends where no blank and no comma is. -/
theorem render_ends (h : item.isGrammatical = true) :
    ∃ c cs, item.render.toList = c :: cs ∧ isSeparator c = false ∧
      ∀ d ∈ item.render.toList.getLast?, isBlank d = false := by
  cases item with
  | text t =>
    refine ⟨'"', t.toList ++ ['"'], by simp [render], by decide, ?_⟩
    simp only [render, String.toList_append, List.getLast?_append]
    rintro d ⟨⟩
    decide
  | value x =>
    have hx := Operand.isToken_render h
    obtain ⟨c, cs, hcs⟩ := List.exists_cons_of_ne_nil hx.1
    exact ⟨c, cs, hcs, hx.not_separator c (by simp [hcs]), hx.last_not_blank []⟩

theorem skip_front (h : item.isGrammatical = true) {front : List Char}
    (hfront : front = [] ∨ front = ", ".toList) (rest : List Char) :
    dropBlanks ((dropBlanks (front ++ (item.render.toList ++ rest))).dropWhile (· == ',')) =
      item.render.toList ++ rest := by
  obtain ⟨c, cs, hcs, hc, -⟩ := render_ends h
  simp only [isSeparator, Bool.or_eq_false_iff] at hc
  have hcomma : isBlank ',' = false := by decide
  have hspace : isBlank ' ' = true := by decide
  rcases hfront with rfl | rfl <;> simp [hcs, dropBlanks, hc, hcomma, hspace]

/-- One item is read, as the first one or after a comma and a blank. -/
theorem printItemsWithin_step (h : item.isGrammatical = true) {front rest : List Char}
    (hfront : front = [] ∨ front = ", ".toList)
    (hrest : ∀ c ∈ rest.head?, isSeparator c = true) (fuel : Nat) :
    printItemsWithin (fuel + 1) (front ++ (item.render.toList ++ rest)) =
      (printItemsWithin fuel rest).map (item :: ·) := by
  rw [printItemsWithin, skip_front h hfront]
  cases item with
  | text t =>
    have hquote : ∀ c ∈ t.toList, (c != '"') = true := List.all_eq_true.1 h
    have hstop := stops_cons (p := (· != '"')) (c := '"') (by decide) rest
    have hlist : (PrintItem.text t).render.toList ++ rest = '"' :: (t.toList ++ '"' :: rest) := by
      simp [render]
    rw [hlist]
    simp only [takeWhile_run hquote hstop, dropWhile_run hquote hstop, String.ofList_toList]
    cases printItemsWithin fuel rest <;> rfl
  | value x =>
    have hx := Operand.isToken_render h
    have hrun : ∀ c ∈ x.render.toList, (!isSeparator c) = true := by
      intro c hc
      simp [hx.not_separator c hc]
    have hstop : ∀ c ∈ rest.head?, (!isSeparator c) = false := by
      intro c hc
      simp [hrest c hc]
    have hlist : (PrintItem.value x).render.toList ++ rest = x.render.toList ++ rest := rfl
    obtain ⟨c, cs, hcs⟩ := List.exists_cons_of_ne_nil hx.1
    have hquote : c ≠ '"' := ne_quote_of_isTokenChar (hx.2 c (by simp [hcs]))
    rw [hlist]
    split
    · rename_i hnil
      exact absurd (List.append_eq_nil_iff.1 hnil).1 hx.1
    · rename_i hcons
      rw [hcs] at hcons
      exact absurd (List.cons.inj hcons).1 hquote
    · simp only [takeWhile_run hrun hstop, dropWhile_run hrun hstop, Operand.parse_render h]
      cases printItemsWithin fuel rest <;> rfl

/-- The items after the first one, each with a comma and a blank in front of it. -/
def tail (items : List PrintItem) : List Char :=
  (items.map (·.render.toList)).flatMap (", ".toList ++ ·)

theorem tail_cons (item : PrintItem) (items : List PrintItem) :
    tail (item :: items) = ", ".toList ++ (item.render.toList ++ tail items) := by
  simp [tail]

theorem tail_head (items : List PrintItem) : ∀ c ∈ (tail items).head?, isSeparator c = true := by
  cases items with
  | nil => simp [tail]
  | cons item items =>
    rw [tail_cons]
    rintro c ⟨⟩
    decide

theorem length_le_tail (items : List PrintItem) : items.length ≤ (tail items).length := by
  induction items with
  | nil => simp
  | cons item items ih =>
    have hcomma : ", ".toList.length = 2 := rfl
    simp only [tail_cons, List.length_cons, List.length_append, hcomma]
    omega

theorem printItemsWithin_tail {items : List PrintItem}
    (h : ∀ item ∈ items, item.isGrammatical = true) {fuel : Nat} (hfuel : items.length ≤ fuel) :
    printItemsWithin fuel (tail items) = .ok items := by
  induction items generalizing fuel with
  | nil => cases fuel <;> rfl
  | cons item items ih =>
    obtain ⟨less, rfl⟩ : ∃ less, fuel = less + 1 := ⟨fuel - 1, by simp at hfuel; omega⟩
    rw [tail_cons, printItemsWithin_step (h item List.mem_cons_self) (.inr rfl) (tail_head items),
      ih (fun i hi => h i (List.mem_cons_of_mem _ hi)) (by simpa using hfuel)]
    rfl

/-- The items of a print statement, with commas. -/
theorem printItems_intercalate {items : List PrintItem}
    (h : ∀ item ∈ items, item.isGrammatical = true) :
    printItems (", ".toList.intercalate (items.map (·.render.toList))) = .ok items := by
  cases items with
  | nil => rfl
  | cons item items =>
    have hjoin : ", ".toList.intercalate ((item :: items).map (·.render.toList)) =
        [] ++ (item.render.toList ++ tail items) := intercalate_cons _ _ _
    have hfuel : items.length ≤ ([] ++ (item.render.toList ++ tail items)).length := by
      have hlen := length_le_tail items
      simp only [List.nil_append, List.length_append]
      omega
    unfold printItems
    rw [hjoin, printItemsWithin_step (h item List.mem_cons_self) (.inl rfl) (tail_head items),
      printItemsWithin_tail (fun i hi => h i (List.mem_cons_of_mem _ hi)) hfuel]
    rfl

end PrintItem

/-- A text that starts with the word `print` and a blank is a print statement. -/
theorem Shape.of_print (items : List Char) :
    Shape.of (printWord ++ ' ' :: items) = .print (trim (' ' :: items)) := by
  have hkeyword : keywordShape (printWord ++ ' ' :: items) = .print (trim (' ' :: items)) := rfl
  unfold Shape.of
  rw [isPrefixOf_declareWord (by decide), if_neg (by decide)]
  rcases assembly?_mnemonic (show printWord.all isMnemonicChar = true by decide) items
    with hasm | ⟨after, hasm⟩
  · rw [hasm]
    exact hkeyword
  · rw [hasm]
    exact hkeyword

/-- **Print statements.** The word, a blank, and the items with commas. -/
theorem decode_print_spelled {items : List PrintItem}
    (h : ∀ item ∈ items, item.isGrammatical = true) {text : String}
    (htext : text = "print " ++ ", ".intercalate (items.map PrintItem.render)) :
    Statement.decode text = some (.simple text (.print items)) := by
  have hlist : text.toList =
      printWord ++ ' ' :: ", ".toList.intercalate (items.map (·.render.toList)) := by
    rw [htext, String.toList_append, String.toList_intercalate, List.map_map]
    rfl
  have htrim : trim (' ' :: ", ".toList.intercalate (items.map (·.render.toList))) =
      ", ".toList.intercalate (items.map (·.render.toList)) := by
    have hends : ∀ t ∈ items.map (·.render.toList), t ≠ [] ∧
        (∀ c ∈ t.head?, isBlank c = false) ∧ ∀ c ∈ t.getLast?, isBlank c = false := by
      intro t ht
      obtain ⟨item, hitem, rfl⟩ := List.mem_map.1 ht
      obtain ⟨c, cs, hcs, hc, hlast⟩ := PrintItem.render_ends (h item hitem)
      simp only [isSeparator, Bool.or_eq_false_iff] at hc
      exact ⟨by simp [hcs], by rw [hcs]; exact stops_cons hc.2 cs, hlast⟩
    rw [trim_cons (by decide)]
    exact trim_eq_self_iff.2
      ⟨forall_head?_intercalate (fun t ht => (hends t ht).1) fun t ht => (hends t ht).2.1,
        forall_getLast?_intercalate (fun t ht => (hends t ht).1) fun t ht => (hends t ht).2.2⟩
  unfold Statement.decode
  rw [hlist, Shape.of_print, htrim]
  simp only [Shape.decode, PrintItem.printItems_intercalate h]
  rfl

/-! ## Loops -/

/-- The kind of a loop and the text of its count or of its condition. -/
def Header.loop? : Header → Option (LoopKind × String)
  | .times x => some (.times, x.render)
  | .whileTrue c => some (.whileTrue, c.render)
  | .doWhile c => some (.doWhile, c.render)
  | .ifTrue _ => none

def Header.isGrammatical : Header → Bool
  | .times x => x.isGrammatical
  | .whileTrue c | .doWhile c | .ifTrue c => c.isGrammatical

theorem IsRest.head_append {cs : List Char} (h : IsRest cs) (ds : List Char) :
    ∀ c ∈ (cs ++ ds).head?, isBlank c = false := by
  obtain ⟨c, cs, rfl⟩ := List.exists_cons_of_ne_nil h.ne_nil
  exact h.head

theorem IsRest.append {cs ds : List Char} (h : IsRest cs) (hds : isOneLine ds = true) :
    IsRest (cs ++ ds) where
  ne_nil := by simp [h.ne_nil]
  head := h.head_append ds
  oneLine := isOneLine_append.2 ⟨h.oneLine, hds⟩

theorem isRest_of_not_blank {cs : List Char} (hne : cs ≠ []) (h : ∀ c ∈ cs, isBlank c = false) :
    IsRest cs where
  ne_nil := hne
  head := fun c hc => h c (List.mem_of_mem_head? hc)
  oneLine := isOneLine_of_not_blank h

theorem IsToken.isRest {cs : List Char} (h : IsToken cs) : IsRest cs :=
  isRest_of_not_blank h.1 h.not_blank

theorem Condition.isRest_render {c : Condition} (h : c.isGrammatical = true) :
    IsRest c.render.toList := by
  cases c with
  | nonzero x => exact (Operand.isToken_render h).isRest
  | compare lhs cmp rhs =>
    simp only [isGrammatical, Bool.and_eq_true] at h
    have hsymbol : isOneLine (' ' :: (cmp.symbol.toList ++ [' '])) = true := by
      cases cmp <;> decide
    have hrest := ((Operand.isToken_render h.1).isRest.append hsymbol).append
      (Operand.isToken_render h.2).isRest.oneLine
    rw [toList_render_compare]
    simpa using hrest

namespace StartsWithLetter

variable {body : List Char}

theorem ne_nil (h : StartsWithLetter body) : body ≠ [] := by
  obtain ⟨c, cs, rfl, hc⟩ := h
  simp

theorem head_operandChar (h : StartsWithLetter body) :
    ∀ c ∈ body.head?, isOperandChar c = true := by
  obtain ⟨c, cs, rfl, hc⟩ := h
  rintro d ⟨⟩
  exact isOperandChar_of_isTokenChar (isTokenChar_of_isAlpha hc)

theorem head_not_blank (h : StartsWithLetter body) : ∀ c ∈ body.head?, isBlank c = false :=
  fun c hc => isBlank_of_isOperandChar (h.head_operandChar c hc)

theorem bodyAfterBlanks? (h : StartsWithLetter body) :
    bodyAfterBlanks? (' ' :: body) = some body := by
  simp [LineAsm.bodyAfterBlanks?, takeWhile_blank_cons h.head_not_blank,
    dropBlanks_blank_cons h.head_not_blank, h.ne_nil]

/-- No comparison starts with a letter. -/
theorem comparison? (h : StartsWithLetter body) : comparison? (' ' :: body) = none := by
  have hstrip : Comparison.strip? body = none := by
    obtain ⟨c, cs, rfl, hc⟩ := h
    have hne : c ≠ '=' ∧ c ≠ '!' ∧ c ≠ '<' ∧ c ≠ '>' := by
      refine ⟨?_, ?_, ?_, ?_⟩ <;> (rintro rfl; cases hc)
    simp [Comparison.strip?, hne]
  simp only [LineAsm.comparison?, dropBlanks_blank_cons h.head_not_blank, hstrip]

theorem countedBody? (h : StartsWithLetter body) {count : List Char} (hcount : IsToken count) :
    countedBody? (count ++ ' ' :: body) = some (count, body) := by
  have hrun : ∀ c ∈ count, (!isSeparator c) = true := by
    intro c hc
    simp [hcount.not_separator c hc]
  have hstop := stops_cons (p := (!isSeparator ·)) (c := ' ') (by decide) body
  have hblank : ∀ c ∈ [' '], isSeparator c = true := List.forall_mem_singleton.2 (by decide)
  have hbody : ∀ c ∈ body.head?, isSeparator c = false := fun c hc =>
    isSeparator_of_isOperandChar (h.head_operandChar c hc)
  have hgap : (' ' :: body).takeWhile isSeparator = [' '] := takeWhile_run hblank hbody
  have hafter : (' ' :: body).dropWhile isSeparator = body := dropWhile_run hblank hbody
  unfold LineAsm.countedBody?
  simp only [takeWhile_run hrun hstop, dropWhile_run hrun hstop, hgap, hafter, hcount.1]
  obtain ⟨c, cs, rfl, -⟩ := h
  simp

/-- A comparison is taken up to the end of its right operand. -/
theorem comparison?_compare {rhs : List Char} (hr : IsToken rhs) (cmp : Comparison)
    (body : List Char) :
    LineAsm.comparison? (' ' :: (cmp.symbol.toList ++ ' ' :: (rhs ++ ' ' :: body))) =
      some (' ' :: (cmp.symbol.toList ++ ' ' :: rhs), ' ' :: body) := by
  have hstop := stops_cons (p := isOperandChar) (c := ' ') (by decide) body
  have htake : ∀ front follows : List Char,
      (front ++ follows).take ((front ++ follows).length - follows.length) = front := by
    intro front follows
    rw [List.length_append, Nat.add_sub_cancel, List.take_left]
  unfold LineAsm.comparison?
  simp only [Condition.dropBlanks_symbol, Condition.strip?_symbol, Condition.dropBlanks_token hr,
    takeWhile_run hr.operandChars hstop, dropWhile_run hr.operandChars hstop, hr.1, if_false]
  have htext := htake (' ' :: (cmp.symbol.toList ++ ' ' :: rhs)) (' ' :: body)
  simp only [List.cons_append, List.append_assoc] at htext
  rw [htext]

theorem guardedBody? (h : StartsWithLetter body) {c : Condition} (hc : c.isGrammatical = true) :
    guardedBody? (c.render.toList ++ ' ' :: body) = some (c.render.toList, body) := by
  have hstop : ∀ rest, ∀ d ∈ (' ' :: rest).head?, isOperandChar d = false :=
    stops_cons (by decide)
  cases c with
  | nonzero x =>
    have hx := Operand.isToken_render hc
    unfold LineAsm.guardedBody? Condition.render
    simp [takeWhile_run hx.operandChars (hstop _), dropWhile_run hx.operandChars (hstop _), hx.1,
      h.comparison?, h.bodyAfterBlanks?]
  | compare lhs cmp rhs =>
    simp only [Condition.isGrammatical, Bool.and_eq_true] at hc
    have hl := Operand.isToken_render hc.1
    have hr := Operand.isToken_render hc.2
    rw [Condition.toList_render_compare]
    unfold LineAsm.guardedBody?
    simp [takeWhile_run hl.operandChars (hstop _), dropWhile_run hl.operandChars (hstop _), hl.1,
      comparison?_compare hr, h.bodyAfterBlanks?]

end StartsWithLetter

namespace IsBodyText

variable {body : List Char}

theorem isRest (h : IsBodyText body) : IsRest body where
  ne_nil := h.letter.ne_nil
  head := (trim_eq_self_iff.1 h.trimmed).1
  oneLine := h.oneLine

/-- A text in front of a body has no outer blanks if it has none on its left. -/
theorem trim_append (h : IsBodyText body) {front : List Char} (hfront : IsRest front) :
    trim (front ++ ' ' :: body) = front ++ ' ' :: body := by
  have hbody := (trim_eq_self_iff.1 h.trimmed).2
  have hlast := List.getLast?_eq_some_getLast h.letter.ne_nil
  refine trim_eq_self_iff.2 ⟨hfront.head_append _, ?_⟩
  rw [hlast] at hbody
  simpa [List.getLast?_append, List.getLast?_cons, hlast] using hbody

end IsBodyText

theorem LoopKind.ofName?_name (kind : LoopKind) : ofName? kind.name = some kind := by
  cases kind <;> decide

namespace Header

variable {header : Header} {kind : LoopKind} {test : String}

theorem isRest_test (hheader : header.isGrammatical = true)
    (h : header.loop? = some (kind, test)) : IsRest test.toList := by
  cases header with
  | ifTrue c => cases h
  | times x =>
    cases h
    exact (Operand.isToken_render hheader).isRest
  | whileTrue c | doWhile c =>
    cases h
    exact Condition.isRest_render hheader

/-- What stands after `loop`: the kind, the test and the body. -/
theorem decodeLoop_spelled (hheader : header.isGrammatical = true)
    (h : header.loop? = some (kind, test)) {kindWord : List Char}
    (hkind : lowerCase kindWord = kind.name) (hblank : ∀ c ∈ kindWord, (!isBlank c) = true)
    {body : List Char} (hbody : IsBodyText body)
    (nested : Form → List Char → Except Fault Statement) (text : String) :
    decodeLoop nested text (kindWord ++ ' ' :: (test.toList ++ ' ' :: body)) =
      (nested (.loop kind) body).map (.block text header) := by
  have hstop := stops_cons (p := (!isBlank ·)) (c := ' ') (by decide) (test.toList ++ ' ' :: body)
  have hname : LoopKind.ofName? (lowerCase ((kindWord ++ ' ' :: (test.toList ++ ' ' ::
      body)).takeWhile (!isBlank ·))) = some kind := by
    rw [takeWhile_run hblank hstop, hkind, kind.ofName?_name]
  have htail : trim ((kindWord ++ ' ' :: (test.toList ++ ' ' :: body)).dropWhile
      (!isBlank ·)) = test.toList ++ ' ' :: body := by
    rw [dropWhile_run hblank hstop, trim_cons (by decide),
      hbody.trim_append (isRest_test hheader h)]
  cases header with
  | ifTrue c => cases h
  | times x =>
    cases h
    have hparts := hbody.letter.countedBody? (Operand.isToken_render hheader)
    rw [← htail] at hparts
    exact decodeLoop_times hname hparts (Operand.parse_render hheader)
  | whileTrue c | doWhile c =>
    cases h
    have hparts := hbody.letter.guardedBody? hheader
    rw [← htail] at hparts
    exact decodeLoop_guarded hname (by decide) hparts (Condition.parse_render hheader)

/-- **Loops.** The words in any mix of cases, the count or the condition, and the body, which is
left to any reader of bodies. -/
theorem read_spelled (hheader : header.isGrammatical = true)
    (h : header.loop? = some (kind, test)) {word kindWord text : String} {body : List Char}
    (hword : lowerCase word.toList = "loop") (hkind : lowerCase kindWord.toList = kind.name)
    (hbody : IsBodyText body)
    (htext : text.toList = word.toList ++ ' ' ::
      (kindWord.toList ++ ' ' :: (test.toList ++ ' ' :: body)))
    (nested : Form → List Char → Except Fault Statement) :
    (Shape.of text.toList).decode nested text =
      some (.orFault text ((nested (.loop kind) body).map (.block text header))) := by
  have hcommand : IsCommandWord word.toList := isCommandWord_of_lowerCase hword (by decide)
    (by decide) (by decide) (by decide) (by decide)
  have hblank : ∀ c ∈ kindWord.toList, (!isBlank c) = true := by
    refine forall_of_lowerCase (fun c hc => ?_) hkind (by cases kind <;> decide)
    simp [isBlank_of_isOperandChar (isOperandChar_of_isTokenChar (isTokenChar_of_isAlpha hc))]
  have hline : isOneLine (' ' :: (test.toList ++ ' ' :: body)) = true := by
    have htest := isOneLine_iff.1 (isRest_test hheader h).oneLine
    simp [isOneLine_iff, htest, isOneLine_iff.1 hbody.oneLine]
  have hne : kindWord.toList ≠ [] := by
    intro hnil
    rw [hnil] at hkind
    cases kind <;> exact absurd hkind (by decide)
  have hrest := (isRest_of_not_blank hne fun c hc => by simpa using hblank c hc).append hline
  rw [htext, Shape.of_word hcommand hrest]
  simp only [Shape.decode, decodeAssembly, hword, if_true,
    decodeLoop_spelled hheader h hkind hblank hbody]

/-- A loop is read back, and its body as it would be read alone. -/
theorem decode_spelled (hheader : header.isGrammatical = true)
    (h : header.loop? = some (kind, test)) {word kindWord body text : String}
    (hword : lowerCase word.toList = "loop") (hkind : lowerCase kindWord.toList = kind.name)
    {s : Statement} (hbody : IsBody body s)
    (htext : text = word ++ " " ++ kindWord ++ " " ++ test ++ " " ++ body) :
    Statement.decode text = some (.block text header s) := by
  have hlist : text.toList = word.toList ++ ' ' ::
      (kindWord.toList ++ ' ' :: (test.toList ++ ' ' :: body.toList)) := by
    simp [htext]
  unfold Statement.decode
  rw [read_spelled hheader h hword hkind hbody.isBodyText hlist, hbody.decodeNested]
  rfl

end Header

/-! ## All spellings -/

/-- **What is spelled is read back.** Operations, print statements and loops, written from
grammatical parts, are decoded as what they were: words in any mix of cases, and the body of a loop
as the statement that it is on its own. -/
theorem decode_inverts_spelling :
    (∀ (action : Action) (m : Mnemonic) (operands : List String) (word text : String),
      action.isGrammatical = true → action.operation? = some (m, operands) →
      lowerCase word.toList = m.name → text = word ++ " " ++ ", ".intercalate operands →
      Statement.decode text = some (.simple text action)) ∧
    (∀ (items : List PrintItem) (text : String), (∀ item ∈ items, item.isGrammatical = true) →
      text = "print " ++ ", ".intercalate (items.map PrintItem.render) →
      Statement.decode text = some (.simple text (.print items))) ∧
    (∀ (header : Header) (kind : LoopKind) (test word kindWord body text : String) (s : Statement),
      header.isGrammatical = true → header.loop? = some (kind, test) →
      lowerCase word.toList = "loop" → lowerCase kindWord.toList = kind.name → IsBody body s →
      text = word ++ " " ++ kindWord ++ " " ++ test ++ " " ++ body →
      Statement.decode text = some (.block text header s)) := by
  refine ⟨?_, ?_, ?_⟩
  · intro action m operands word text haction hoperation hword htext
    exact Action.decode_spelled haction hoperation hword htext
  · intro items text hitems htext
    exact decode_print_spelled hitems htext
  · intro header kind test word kindWord body text s hheader hloop hword hkind hbody htext
    exact Header.decode_spelled hheader hloop hword hkind hbody htext

theorem decode_inverts_spelling_mixed :
    Statement.decode "MoV arr[i], -5" =
      some (.simple "MoV arr[i], -5"
        (.mov (.cell ⟨"arr", .index (.register "i")⟩) (.literal (-5)))) ∧
    Statement.decode "print \"a, b\", m\x7bk.1\x7d" =
      some (.simple "print \"a, b\", m\x7bk.1\x7d"
        (.print [.text "a, b", .value (.place (.cell ⟨"m", .key "k.1"⟩))])) ∧
    Statement.decode "LOOP Do-While x < 3 loop for 2 add x, 1" =
      some (.block "LOOP Do-While x < 3 loop for 2 add x, 1"
        (.doWhile (.compare (.place (.register "x")) .lt (.literal 3)))
        (.block "loop for 2 add x, 1" (.times (.literal 2))
          (.simple "add x, 1" (.arith .add "x" (.literal 1))))) := by
  have hbody : IsBody "loop for 2 add x, 1" (.block "loop for 2 add x, 1" (.times (.literal 2))
      (.simple "add x, 1" (.arith .add "x" (.literal 1)))) := by
    constructor <;> decide +kernel
  refine ⟨decode_inverts_spelling.1 _ .mov ["arr[i]", "-5"] "MoV" _ ?_ ?_ ?_ ?_,
    decode_inverts_spelling.2.1 _ _ ?_ ?_,
    decode_inverts_spelling.2.2 _ .doWhile "x < 3" "LOOP" "Do-While" _ _ _ ?_ ?_ ?_ ?_ hbody ?_⟩
  all_goals decide +kernel

end LineAsm
