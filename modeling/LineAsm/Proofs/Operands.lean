import LineAsm.Proofs.Tokens
import LineAsm.Statement.Decode

/-!
# Operands and their texts

`render` writes operands, places and conditions, and `parse` reads them back: what is written from
grammatical names and keys is read as what it was.

Results:
* `Operand.isGrammatical` and the like: names and keys are ones that the readers accept.
* `IsToken`: what a token of an operand list looks like; rendered operands and function names are
  such tokens.
* `Place.parse_render`, `Operand.parse_render`, `Condition.parse_render`: reading what was written.
-/
namespace LineAsm

open Text

/-! ## Grammatical names and keys -/

/-- Keys of cells. -/
def isKey (cs : List Char) : Bool := !cs.isEmpty && cs.all isKeyChar

def Index.isGrammatical : Index → Bool
  | .literal _ => true
  | .register name => isName name.toList

def Address.isGrammatical : Address → Bool
  | .index i => i.isGrammatical
  | .key k => isKey k.toList

def Cell.isGrammatical (cell : Cell) : Bool :=
  isName cell.container.toList && cell.address.isGrammatical

def Place.isGrammatical : Place → Bool
  | .register name => isName name.toList
  | .cell c => c.isGrammatical

def Operand.isGrammatical : Operand → Bool
  | .literal _ => true
  | .place p => p.isGrammatical

def Condition.isGrammatical : Condition → Bool
  | .nonzero x => x.isGrammatical
  | .compare lhs _ rhs => lhs.isGrammatical && rhs.isGrammatical

/-! ## Classes of characters -/

/-- The characters in the texts of operands and function names. -/
def isTokenChar (c : Char) : Bool :=
  isKeyChar c || c == '[' || c == ']' || c == '\x7b' || c == '\x7d'

theorem toNat_lt_of_isTokenChar {c : Char} (h : isTokenChar c = true) : c.toNat < 128 := by
  delta isTokenChar isKeyChar Char.isAlphanum Char.isAlpha Char.isUpper Char.isLower
    Char.isDigit at h
  simp only [Bool.or_eq_true, Bool.and_eq_true, decide_eq_true_eq, beq_iff_eq, ge_iff_le,
    UInt32.le_iff_toNat_le, Char.toNat_val, Char.reduceToNat, ← Char.toNat_inj] at h
  omega

/-- What the table of ASCII says about characters of tokens. -/
theorem of_isTokenChar {p : Char → Bool}
    (h : ∀ n < 128, isTokenChar (Char.ofNat n) = true → p (Char.ofNat n) = true) {c : Char}
    (hc : isTokenChar c = true) : p c = true := by
  have hp := h c.toNat (toNat_lt_of_isTokenChar hc)
  rw [Char.ofNat_toNat] at hp
  exact hp hc

theorem isOperandChar_of_isTokenChar {c : Char} (h : isTokenChar c = true) :
    isOperandChar c = true := of_isTokenChar (by decide) h

theorem ne_quote_of_isTokenChar {c : Char} (h : isTokenChar c = true) : c ≠ '"' := by
  rintro rfl
  exact absurd h (by decide)

theorem isBlank_of_isOperandChar {c : Char} (h : isOperandChar c = true) : isBlank c = false := by
  simp only [isOperandChar, Bool.and_eq_true, Bool.not_eq_true'] at h
  exact h.1.1.1.1.1

theorem isSeparator_of_isOperandChar {c : Char} (h : isOperandChar c = true) :
    isSeparator c = false := by
  have hb := isBlank_of_isOperandChar h
  simp only [isOperandChar, Bool.and_eq_true, bne_iff_ne] at h
  simp [isSeparator, hb, h.1.1.1.1.2]

theorem isTokenChar_of_isKeyChar {c : Char} (h : isKeyChar c = true) : isTokenChar c = true := by
  simp [isTokenChar, h]

theorem isIndexChar_of_isKeyChar {c : Char} (h : isKeyChar c = true) : isIndexChar c = true := by
  have hc := of_isTokenChar (p := fun c => !isKeyChar c || isIndexChar c) (by decide)
    (isTokenChar_of_isKeyChar h)
  simpa [h] using hc

theorem isKeyChar_of_isNameChar {c : Char} (h : isNameChar c = true) : isKeyChar c = true := by
  simp only [isNameChar, Bool.or_eq_true] at h
  rcases h with h | h <;> simp [isKeyChar, h]

theorem isNameChar_of_isNameStart {c : Char} (h : isNameStart c = true) : isNameChar c = true := by
  simp only [isNameStart, Bool.or_eq_true] at h
  rcases h with h | h <;> simp [isNameChar, Char.isAlphanum, h]

/-- No numeral starts like a name. -/
theorem isNumeral_of_isNameStart {c : Char} (h : isNameStart c = true) (cs : List Char) :
    isNumeral (c :: cs) = false := by
  have hkey := isKeyChar_of_isNameChar (isNameChar_of_isNameStart h)
  have hc := of_isTokenChar (p := fun c => !isNameStart c || (c != '-' && !c.isDigit)) (by decide)
    (isTokenChar_of_isKeyChar hkey)
  simp only [h, Bool.not_true, Bool.false_or, Bool.and_eq_true, bne_iff_ne,
    Bool.not_eq_true'] at hc
  unfold isNumeral
  split
  · rename_i heq
    exact absurd (List.cons.inj heq).1 hc.1
  · simp [hc.2]

/-! ## Tokens -/

/-- A text that can be one of the operands of an operation. -/
def IsToken (cs : List Char) : Prop := cs ≠ [] ∧ ∀ c ∈ cs, isTokenChar c = true

namespace IsToken

variable {cs : List Char}

theorem operandChars (h : IsToken cs) : ∀ c ∈ cs, isOperandChar c = true :=
  fun c hc => isOperandChar_of_isTokenChar (h.2 c hc)

theorem not_separator (h : IsToken cs) : ∀ c ∈ cs, isSeparator c = false :=
  fun c hc => isSeparator_of_isOperandChar (h.operandChars c hc)

theorem not_blank (h : IsToken cs) : ∀ c ∈ cs, isBlank c = false :=
  fun c hc => isBlank_of_isOperandChar (h.operandChars c hc)

theorem head_not_blank (h : IsToken cs) (rest : List Char) :
    ∀ c ∈ (cs ++ rest).head?, isBlank c = false := by
  obtain ⟨c, cs, rfl⟩ := List.exists_cons_of_ne_nil h.1
  exact stops_cons (h.not_blank c List.mem_cons_self) _

theorem last_not_blank (h : IsToken cs) (front : List Char) :
    ∀ c ∈ (front ++ cs).getLast?, isBlank c = false := by
  intro c hc
  rw [List.getLast?_append, List.getLast?_eq_some_getLast h.1] at hc
  cases hc
  exact h.not_blank _ (List.getLast_mem h.1)

end IsToken

theorem isKey_iff {cs : List Char} :
    isKey cs = true ↔ cs ≠ [] ∧ ∀ c ∈ cs, isKeyChar c = true := by
  simp [isKey]

theorem isToken_of_isKey {cs : List Char} (h : isKey cs = true) : IsToken cs := by
  obtain ⟨hne, hchars⟩ := isKey_iff.1 h
  exact ⟨hne, fun c hc => isTokenChar_of_isKeyChar (hchars c hc)⟩

/-- A name is a character that starts names and others that go on with them. -/
theorem isName_iff {cs : List Char} :
    isName cs = true ↔ ∃ c rest, cs = c :: rest ∧ isNameStart c = true ∧
      ∀ d ∈ rest, isNameChar d = true := by
  cases cs with
  | nil => simp [isName]
  | cons c rest =>
    simp only [isName, Bool.and_eq_true, List.all_eq_true]
    constructor
    · intro h
      exact ⟨c, rest, rfl, h⟩
    · rintro ⟨_, _, heq, h⟩
      cases heq
      exact h

theorem nameChars_of_isName {cs : List Char} (h : isName cs = true) :
    ∀ c ∈ cs, isNameChar c = true := by
  obtain ⟨c, rest, rfl, hc, hrest⟩ := isName_iff.1 h
  intro d hd
  rcases List.mem_cons.1 hd with rfl | hd
  · exact isNameChar_of_isNameStart hc
  · exact hrest d hd

theorem isKey_of_isName {cs : List Char} (h : isName cs = true) : isKey cs = true := by
  refine isKey_iff.2 ⟨?_, fun c hc => isKeyChar_of_isNameChar (nameChars_of_isName h c hc)⟩
  rintro rfl
  cases h

theorem isNumeral_of_isName {cs : List Char} (h : isName cs = true) (rest : List Char) :
    isNumeral (cs ++ rest) = false := by
  obtain ⟨c, cs, rfl, hc, -⟩ := isName_iff.1 h
  exact isNumeral_of_isNameStart hc _

/-! ## Numerals -/

theorem isNumeral_digits {ds : List Char} (hne : ds ≠ []) (hds : ∀ c ∈ ds, c.isDigit = true) :
    isNumeral ds = true ∧ numeralValue ds = Nat.ofDigitChars 10 ds 0 := by
  have hminus : ∀ rest, ds ≠ '-' :: rest := by
    rintro rest rfl
    exact absurd (hds '-' List.mem_cons_self) (by decide)
  constructor
  · unfold isNumeral
    split
    · exact absurd rfl (hminus _)
    · simpa [hne] using hds
  · unfold numeralValue
    split
    · exact absurd rfl (hminus _)
    · rfl

/-- The text of an integer is a numeral with its value. -/
theorem numeral_repr (n : Int) :
    isKey n.repr.toList = true ∧ isNumeral n.repr.toList = true ∧
      numeralValue n.repr.toList = n := by
  have hne : ∀ k, Nat.toDigits 10 k ≠ [] := fun k => Nat.toDigits_ne_nil
  have hds : ∀ k, ∀ c ∈ Nat.toDigits 10 k, c.isDigit = true :=
    fun k c hc => Nat.isDigit_of_mem_toDigits (by decide) (by decide) hc
  have hkey : ∀ k, ∀ c ∈ Nat.toDigits 10 k, isKeyChar c = true := by
    intro k c hc
    simp [isKeyChar, Char.isAlphanum, hds k c hc]
  cases n with
  | ofNat k =>
    obtain ⟨hnum, hval⟩ := isNumeral_digits (hne k) (hds k)
    rw [show (Int.ofNat k).repr = k.repr from rfl, Nat.toList_repr]
    exact ⟨isKey_iff.2 ⟨hne k, hkey k⟩, hnum, by rw [hval, Nat.ofDigitChars_ten_toDigits]; rfl⟩
  | negSucc k =>
    have htext : (Int.negSucc k).repr.toList = '-' :: Nat.toDigits 10 (k + 1) := by
      rw [show (Int.negSucc k).repr = "-" ++ (k + 1).repr from rfl, String.toList_append,
        Nat.toList_repr]
      rfl
    rw [htext]
    refine ⟨isKey_iff.2 ⟨by simp, ?_⟩, ?_, ?_⟩
    · intro c hc
      rcases List.mem_cons.1 hc with rfl | hc
      · decide
      · exact hkey (k + 1) c hc
    · simpa [isNumeral, hne] using hds (k + 1)
    · simp only [numeralValue, Nat.ofDigitChars_ten_toDigits]
      rfl

namespace Word

theorem ofInt?_toInt (w : Word) : ofInt? w.toInt = some w := by
  have hle := w.le_toInt
  have hlt := w.toInt_lt
  unfold ofInt? least greatest
  rw [if_pos (by omega), Int64.ofInt_toInt]

theorem isKey_render (w : Word) : isKey w.render.toList = true := (numeral_repr w.toInt).1

theorem isNumeral_render (w : Word) : isNumeral w.render.toList = true := (numeral_repr w.toInt).2.1

theorem parseNumeral_render (w : Word) : parseNumeral w.render.toList = .ok w := by
  unfold parseNumeral render
  rw [(numeral_repr w.toInt).2.2, ofInt?_toInt]

end Word

/-! ## Places -/

theorem Index.parse_render {i : Index} (h : i.isGrammatical = true) (token : List Char) :
    Index.parse token i.render.toList = .ok i := by
  cases i with
  | literal w =>
    unfold parse render
    rw [if_pos w.isNumeral_render, w.parseNumeral_render]
    rfl
  | register name =>
    have hnum := isNumeral_of_isName h []
    rw [List.append_nil] at hnum
    unfold parse render
    simp only [isGrammatical] at h
    simp [hnum, h]

theorem Index.isKey_render {i : Index} (h : i.isGrammatical = true) :
    isKey i.render.toList = true := by
  cases i with
  | literal w => exact w.isKey_render
  | register name => exact isKey_of_isName h

section
variable {opening closing : Char} {inside : Char → Bool} {name content : List Char}

theorem bracketed?_render (hname : isName name = true) (hopen : isNameChar opening = false)
    (hne : content ≠ []) (hin : ∀ c ∈ content, inside c = true) (hclose : inside closing = false) :
    bracketed? opening closing inside (name ++ opening :: (content ++ [closing])) =
      some (name, content) := by
  have hchars := nameChars_of_isName hname
  have hstop := stops_cons hopen (content ++ [closing])
  have hend := stops_cons hclose []
  unfold bracketed?
  rw [dropWhile_run hchars hstop]
  simp only [takeWhile_run hchars hstop, takeWhile_run hin hend, dropWhile_run hin hend]
  simp [hname, hne]

/-- Another bracket is not read. -/
theorem bracketed?_other (hname : isName name = true) {other : Char}
    (hother : isNameChar other = false) (hne : other ≠ opening) (rest : List Char) :
    bracketed? opening closing inside (name ++ other :: rest) = none := by
  unfold bracketed?
  rw [dropWhile_run (nameChars_of_isName hname) (stops_cons hother rest)]
  simp [hne]

theorem bracketed?_name (hname : isName name = true) :
    bracketed? opening closing inside name = none := by
  unfold bracketed?
  rw [List.dropWhile_eq_nil_iff.2 (nameChars_of_isName hname)]

end

theorem Cell.toList_render_index (container : String) (i : Index) :
    (Cell.mk container (.index i)).render.toList =
      container.toList ++ '[' :: (i.render.toList ++ [']']) := by
  simp [Cell.render]

theorem Cell.toList_render_key (container key : String) :
    (Cell.mk container (.key key)).render.toList =
      container.toList ++ '\x7b' :: (key.toList ++ ['\x7d']) := by
  simp [Cell.render]

theorem Place.parse_render {p : Place} (h : p.isGrammatical = true) :
    Place.parse p.render.toList = .ok p := by
  cases p with
  | register name =>
    simp only [isGrammatical] at h
    simp [Place.parse, Place.render, bracketed?_name h, h]
  | cell c =>
    obtain ⟨container, address⟩ := c
    simp only [isGrammatical, Cell.isGrammatical, Bool.and_eq_true] at h
    obtain ⟨hname, haddress⟩ := h
    unfold Place.parse Place.render
    cases address with
    | index i =>
      obtain ⟨hne, hchars⟩ := isKey_iff.1 (Index.isKey_render haddress)
      simp only [Cell.toList_render_index]
      rw [bracketed?_render hname (by decide) hne
        (fun c hc => isIndexChar_of_isKeyChar (hchars c hc)) (by decide)]
      simp [Index.parse_render haddress, Except.map]
    | key k =>
      obtain ⟨hne, hchars⟩ := isKey_iff.1 haddress
      simp only [Cell.toList_render_key]
      rw [bracketed?_other hname (by decide) (by decide),
        bracketed?_render hname (by decide) hne hchars (by decide)]
      simp

theorem isToken_bracketed {opening closing : Char} {name content : List Char}
    (hname : isName name = true) (hkey : isKey content = true) (hopen : isTokenChar opening = true)
    (hclose : isTokenChar closing = true) :
    IsToken (name ++ opening :: (content ++ [closing])) := by
  refine ⟨by simp, ?_⟩
  intro c hc
  simp only [List.mem_append, List.mem_cons, List.not_mem_nil, or_false] at hc
  rcases hc with hc | rfl | hc | rfl
  · exact (isToken_of_isKey (isKey_of_isName hname)).2 c hc
  · exact hopen
  · exact (isToken_of_isKey hkey).2 c hc
  · exact hclose

/-- The text of a place starts with a name. -/
theorem Place.toList_render {p : Place} (h : p.isGrammatical = true) :
    IsToken p.render.toList ∧ ∃ name rest, p.render.toList = name ++ rest ∧ isName name = true := by
  cases p with
  | register name =>
    exact ⟨isToken_of_isKey (isKey_of_isName h), name.toList, [], by simp [Place.render], h⟩
  | cell c =>
    obtain ⟨container, address⟩ := c
    simp only [isGrammatical, Cell.isGrammatical, Bool.and_eq_true] at h
    obtain ⟨hname, haddress⟩ := h
    unfold Place.render
    cases address with
    | index i =>
      rw [Cell.toList_render_index]
      have hkey := Index.isKey_render haddress
      exact ⟨isToken_bracketed hname hkey (by decide) (by decide), _, _, rfl, hname⟩
    | key k =>
      rw [Cell.toList_render_key]
      exact ⟨isToken_bracketed hname haddress (by decide) (by decide), _, _, rfl, hname⟩

/-! ## Operands and conditions -/

theorem Operand.isToken_render {x : Operand} (h : x.isGrammatical = true) :
    IsToken x.render.toList := by
  cases x with
  | literal w => exact isToken_of_isKey w.isKey_render
  | place p => exact (Place.toList_render h).1

theorem Operand.parse_render {x : Operand} (h : x.isGrammatical = true) :
    Operand.parse x.render.toList = .ok x := by
  cases x with
  | literal w =>
    unfold Operand.parse Operand.render
    rw [if_pos w.isNumeral_render, w.parseNumeral_render]
    rfl
  | place p =>
    obtain ⟨-, name, rest, htext, hname⟩ := Place.toList_render h
    have hnum : isNumeral p.render.toList = false := by
      rw [htext]
      exact isNumeral_of_isName hname rest
    have hparse : Place.parse p.render.toList = .ok p := Place.parse_render h
    unfold Operand.parse Operand.render
    simp [hnum, hparse, Except.map]

namespace Condition

theorem toList_render_compare (lhs : Operand) (cmp : Comparison) (rhs : Operand) :
    (Condition.compare lhs cmp rhs).render.toList =
      lhs.render.toList ++ ' ' :: (cmp.symbol.toList ++ ' ' :: rhs.render.toList) := by
  simp [Condition.render]

theorem tokens?_token {lhs : List Char} (hl : IsToken lhs) :
    Condition.tokens? lhs = some (lhs, none) := by
  unfold tokens?
  simp only [List.takeWhile_eq_self_iff.2 hl.operandChars,
    List.dropWhile_eq_nil_iff.2 hl.operandChars]
  simp [hl.1, dropBlanks]

theorem strip?_symbol (cmp : Comparison) (rest : List Char) :
    Comparison.strip? (cmp.symbol.toList ++ ' ' :: rest) = some (cmp, ' ' :: rest) := by
  cases cmp <;> rfl

/-- A comparison symbol after a blank is where the blanks end. -/
theorem dropBlanks_symbol (cmp : Comparison) (rest : List Char) :
    dropBlanks (' ' :: (cmp.symbol.toList ++ rest)) = cmp.symbol.toList ++ rest := by
  cases cmp <;> rfl

theorem dropBlanks_token {cs : List Char} (h : IsToken cs) (rest : List Char) :
    dropBlanks (' ' :: (cs ++ rest)) = cs ++ rest :=
  dropBlanks_blank_cons (h.head_not_blank rest)

theorem tokens?_compare {lhs rhs : List Char} (hl : IsToken lhs) (hr : IsToken rhs)
    (cmp : Comparison) :
    Condition.tokens? (lhs ++ ' ' :: (cmp.symbol.toList ++ ' ' :: rhs)) =
      some (lhs, some (cmp, rhs)) := by
  have hstop := stops_cons (p := isOperandChar) (c := ' ') (by decide)
    (cmp.symbol.toList ++ ' ' :: rhs)
  have hrhs : dropBlanks (' ' :: rhs) = rhs := by
    simpa using dropBlanks_token hr []
  have hsymbol : ∃ c cs, cmp.symbol.toList ++ ' ' :: rhs = c :: cs := by
    cases cmp <;> exact ⟨_, _, rfl⟩
  unfold tokens?
  simp only [takeWhile_run hl.operandChars hstop, dropWhile_run hl.operandChars hstop,
    dropBlanks_symbol]
  obtain ⟨c, cs, hcs⟩ := hsymbol
  have hstrip := strip?_symbol cmp rhs
  rw [hcs] at hstrip ⊢
  simp only [hl.1, if_false, hstrip, hrhs]
  rw [if_pos ⟨hr.1, List.all_eq_true.2 hr.operandChars⟩]

theorem parse_render {c : Condition} (h : c.isGrammatical = true) :
    Condition.parse c.render.toList = .ok c := by
  cases c with
  | nonzero x =>
    have hx := Operand.isToken_render h
    have hparse := Operand.parse_render h
    have htrim : trim x.render.toList = x.render.toList :=
      trim_eq_self_iff.2 ⟨by simpa using hx.head_not_blank [], by simpa using hx.last_not_blank []⟩
    unfold Condition.parse Condition.render
    simp [htrim, tokens?_token hx, hparse, Except.map]
  | compare lhs cmp rhs =>
    simp only [isGrammatical, Bool.and_eq_true] at h
    have hl := Operand.isToken_render h.1
    have hr := Operand.isToken_render h.2
    have htrim : trim (compare lhs cmp rhs).render.toList =
        (compare lhs cmp rhs).render.toList := by
      rw [toList_render_compare]
      refine trim_eq_self_iff.2 ⟨hl.head_not_blank _, ?_⟩
      have hlast := hr.last_not_blank (lhs.render.toList ++ ' ' :: (cmp.symbol.toList ++ [' ']))
      simpa using hlast
    unfold Condition.parse
    rw [htrim, toList_render_compare, tokens?_compare hl hr]
    simp [Operand.parse_render h.1, Operand.parse_render h.2, Except.map, Except.bind]

end Condition

end LineAsm
