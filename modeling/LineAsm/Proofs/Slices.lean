import LineAsm.Proofs.Splitting
import LineAsm.Statement.Decode

/-!
# Bodies as slices of a text

A body is cut out of the text of its statement: after a count and separators, after a condition and
blanks, or after `then`. Blanks are taken off at different moments, before the cut in a loop and
after it in a conditional. In every case what is left is one piece of the text without outer blanks.

Results:
* `IsSlice part text`: a piece of a text without outer blanks.
* `countedBody?_isSlice`, `guardedBody?_isSlice`, `conditional?_isSlice`: the three cuts.
* `Shape.isSlice_of_offers`: what the shape of a text offers as a body is a slice of the text.
-/
namespace LineAsm

open Text

/-! ## Slices -/

/-- A piece of a text, without outer blanks. -/
structure IsSlice (part text : List Char) : Prop where
  within : part <:+: text
  trimmed : trim part = part

theorem IsSlice.of_within {part middle text : List Char} (h : IsSlice part middle)
    (hmiddle : middle <:+: text) : IsSlice part text := ⟨h.within.trans hmiddle, h.trimmed⟩

theorem isSlice_trim (text : List Char) : IsSlice (trim text) text := by
  obtain ⟨left, right, htext, -⟩ := exists_blanks_trim text
  exact ⟨⟨left, right, htext.symm⟩, trim_trim text⟩

theorem isSlice_nil (text : List Char) : IsSlice [] text := ⟨List.nil_infix, rfl⟩

/-- The end of a text without outer blanks has none on its right. -/
theorem isSlice_of_suffix {part text : List Char} (htext : trim text = text)
    (hsuffix : part <:+ text) (hhead : ∀ c ∈ part.head?, isBlank c = false) :
    IsSlice part text := by
  refine ⟨hsuffix.isInfix, trim_eq_self_iff.2 ⟨hhead, ?_⟩⟩
  intro c hc
  obtain ⟨front, rfl⟩ := hsuffix
  apply (trim_eq_self_iff.1 htext).2
  rw [List.getLast?_append, Option.mem_def.1 hc]
  rfl

theorem head?_dropWhile {p : Char → Bool} (cs : List Char) :
    ∀ c ∈ (cs.dropWhile p).head?, p c = false := by
  intro c hc
  have h := List.head?_dropWhile_not p cs
  rw [Option.mem_def.1 hc] at h
  exact h

theorem dropBlanks_suffix (cs : List Char) : dropBlanks cs <:+ cs := List.dropWhile_suffix _

/-! ## Bodies of loops -/

theorem countedBody?_isSlice {text count body : List Char} (htext : trim text = text)
    (h : countedBody? text = some (count, body)) : IsSlice body text := by
  have hafter : text.dropWhile (!isSeparator ·) <:+ text := List.dropWhile_suffix _
  unfold countedBody? at h
  simp only at h
  split at h
  · cases h
  split at h
  · -- separators up to the end: the body is the comma that ends the text
    rename_i hrest
    split at h
    · rename_i hgap
      cases h
      have hall : (text.dropWhile (!isSeparator ·)).takeWhile isSeparator =
          text.dropWhile (!isSeparator ·) := by
        have hsplit := List.takeWhile_append_dropWhile (p := isSeparator)
          (l := text.dropWhile (!isSeparator ·))
        rwa [hrest, List.append_nil] at hsplit
      rw [hall] at hgap
      obtain ⟨front, hfront⟩ := List.getLast?_eq_some_iff.1 hgap.2
      have hcomma : [','] <:+ text := List.IsSuffix.trans ⟨front, hfront.symm⟩ hafter
      exact ⟨hcomma.isInfix, by decide⟩
    · cases h
  · cases h
    refine isSlice_of_suffix htext ((List.dropWhile_suffix _).trans hafter) ?_
    intro c hc
    have hc := head?_dropWhile _ c hc
    simp only [isSeparator, Bool.or_eq_false_iff] at hc
    exact hc.2

theorem bodyAfterBlanks?_eq_some {text body : List Char} (h : bodyAfterBlanks? text = some body) :
    body = dropBlanks text := by
  unfold bodyAfterBlanks? at h
  split at h
  · cases h
  · exact (Option.some.inj h).symm

/-- A comparison is found by its symbol. -/
theorem Comparison.strip?_eq_some {text rest : List Char} {cmp : Comparison}
    (h : Comparison.strip? text = some (cmp, rest)) : text = cmp.symbol.toList ++ rest := by
  unfold Comparison.strip? at h
  split at h <;> cases h <;> rfl

/-- What follows a comparison is the end of the text. -/
theorem comparison?_suffix {text comparison follows : List Char}
    (h : comparison? text = some (comparison, follows)) : follows <:+ text := by
  unfold comparison? at h
  split at h
  · cases h
  rename_i cmp after hcmp
  have hafter : after <:+ dropBlanks text :=
    ⟨cmp.symbol.toList, (Comparison.strip?_eq_some hcmp).symm⟩
  simp only at h
  split at h
  · cases h
  · cases h
    exact (List.dropWhile_suffix _).trans ((dropBlanks_suffix _).trans
      (hafter.trans (dropBlanks_suffix _)))

theorem guardedBody?_isSlice {text condition body : List Char} (htext : trim text = text)
    (h : guardedBody? text = some (condition, body)) : IsSlice body text := by
  have hslice : ∀ {rest}, rest <:+ text → bodyAfterBlanks? rest = some body →
      IsSlice body text := by
    intro rest hrest hbody
    rw [bodyAfterBlanks?_eq_some hbody]
    exact isSlice_of_suffix htext ((dropBlanks_suffix _).trans hrest) (head?_dropWhile _)
  have hafter : text.dropWhile isOperandChar <:+ text := List.dropWhile_suffix _
  unfold guardedBody? at h
  simp only at h
  split at h
  · cases h
  split at h
  · rename_i hcompared
    cases h
    obtain ⟨⟨comparison, follows⟩, hcmp, hparts⟩ := Option.bind_eq_some_iff.1 hcompared
    obtain ⟨_, hbody, heq⟩ := Option.map_eq_some_iff.1 hparts
    cases heq
    exact hslice ((comparison?_suffix hcmp).trans hafter) hbody
  · obtain ⟨_, hbody, heq⟩ := Option.map_eq_some_iff.1 h
    cases heq
    exact hslice hafter hbody

/-! ## Bodies of conditionals -/

theorem thenBody?_isSlice {text body : List Char} (h : thenBody? text = some body) :
    IsSlice body text := by
  unfold thenBody? at h
  simp only at h
  split at h
  · split at h
    · cases h
      exact isSlice_nil text
    · cases h
  · split at h
    · cases h
      exact (isSlice_trim _).of_within (dropBlanks_suffix text).isInfix
    · cases h

theorem thenTail?_isSlice {text body : List Char} (h : thenTail? text = some (some body)) :
    IsSlice body text := by
  unfold thenTail? at h
  split at h
  · cases h
  · cases h
  · rename_i rest _ hthen
    obtain ⟨_, hbody, heq⟩ := Option.map_eq_some_iff.1 h
    cases heq
    have hsuffix : rest <:+ text := ⟨thenWord, List.isPrefixOf?_eq_some_iff_append_eq.1 hthen⟩
    exact (thenBody?_isSlice hbody).of_within hsuffix.isInfix

theorem conditionTail?_isSlice {text body : List Char}
    (h : conditionTail? text = some (some body)) : IsSlice body text := by
  unfold conditionTail? at h
  split at h
  · cases h
  · exact (thenTail?_isSlice h).of_within (dropBlanks_suffix text).isInfix

theorem shortestCondition?_isSlice {text condition body : List Char}
    (h : shortestCondition? text = some (condition, some body)) : IsSlice body text := by
  induction text generalizing condition with
  | nil => cases h
  | cons c cs ih =>
    have hcs : cs <:+: c :: cs := (List.suffix_cons c cs).isInfix
    rw [shortestCondition?] at h
    split at h
    · cases h
    split at h
    · rename_i htail
      cases h
      split at htail
      · cases htail
      · exact (conditionTail?_isSlice htail).of_within hcs
    · obtain ⟨⟨_, _⟩, hrest, heq⟩ := Option.map_eq_some_iff.1 h
      cases heq
      exact (ih hrest).of_within hcs

theorem conditional?_isSlice {text condition body : List Char}
    (h : conditional? text = some (condition, some body)) : IsSlice body text := by
  unfold conditional? at h
  split at h
  · cases h
  rename_i rest hif
  have hrest : dropBlanks rest <:+: text :=
    ((dropBlanks_suffix rest).trans
      ⟨ifWord, List.isPrefixOf?_eq_some_iff_append_eq.1 hif⟩).isInfix
  simp only at h
  split at h
  · cases h
  split at h
  · rename_i hparts
    cases h
    exact (shortestCondition?_isSlice hparts).of_within hrest
  · split at h
    · obtain ⟨_, hbody, heq⟩ := Option.map_eq_some_iff.1 h
      cases heq
      exact (thenTail?_isSlice hbody).of_within hrest
    · cases h

/-! ## Shapes -/

theorem assembly?_suffix {text mnemonic rest : List Char}
    (h : assembly? text = some (mnemonic, rest)) : rest <:+ text := by
  unfold assembly? at h
  simp only at h
  split at h
  · cases h
  · split at h
    · cases h
      exact (dropBlanks_suffix _).trans (List.dropWhile_suffix _)
    · cases h

/-- The text can be the body of a statement of the shape. -/
def Shape.Offers (body : List Char) : Shape → Prop
  | .assembly _ rest => IsSlice body rest
  | .conditional _ guarded => guarded = some body
  | .declaration | .print _ | .unrecognized => False

theorem keywordShape_offers {text body : List Char} (h : (keywordShape text).Offers body) :
    IsSlice body text := by
  unfold keywordShape at h
  split at h
  · rename_i hif
    cases h
    exact conditional?_isSlice hif
  · split at h <;> cases h

/-- **Bodies are slices.** What the shape of a text offers as a body is a slice of the text. -/
theorem Shape.isSlice_of_offers {text body : List Char} (h : (Shape.of text).Offers body) :
    IsSlice body text := by
  unfold Shape.of at h
  split at h
  · cases h
  split at h
  · exact keywordShape_offers h
  rename_i hasm
  have hrest := (assembly?_suffix hasm).isInfix
  split at h
  · exact keywordShape_offers h
  split at h
  · split at h
    · rename_i hif
      cases h
      exact conditional?_isSlice hif
    · exact IsSlice.of_within h hrest
  · exact IsSlice.of_within h hrest

end LineAsm
