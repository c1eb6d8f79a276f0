import LineAsm.Proofs.Operands

/-!
# What the readers accept

A writer gives each operand, place and condition one text. The readers accept more texts than those,
with leading zeros, a minus sign in front of zero or blanks in a condition, but no more values: what
is read from any text has names and keys that follow the grammar. So reading and writing settle
after one round: a value that was read is written to a text from which it is read again.

Results:
* `bracketed?_eq_some`: what a token with brackets looks like.
* `Place.isGrammatical_of_parse`, `Operand.isGrammatical_of_parse`,
  `Condition.isGrammatical_of_parse`: values that are read follow the grammar.
* `RoundTrips`: how a reader and a writer fit together, from two facts about them.
* `operand_texts_round_trip`: the three readers, and how operands and places are read alike.
-/
namespace LineAsm

open Text

section
variable {ε α β : Type} {x : Except ε α} {b : β}

theorem exists_of_map_ok {f : α → β} (h : x.map f = .ok b) : ∃ a, x = .ok a ∧ f a = b := by
  cases x with
  | error e => cases h
  | ok a => exact ⟨a, rfl, Except.ok.inj h⟩

theorem exists_of_bind_ok {f : α → Except ε β} (h : x.bind f = .ok b) :
    ∃ a, x = .ok a ∧ f a = .ok b := by
  cases x with
  | error e => cases h
  | ok a => exact ⟨a, rfl, h⟩

end

/-! ## Tokens -/

theorem bracketed?_eq_some {opening closing : Char} {inside : Char → Bool}
    {token name content : List Char}
    (h : bracketed? opening closing inside token = some (name, content)) :
    token = name ++ opening :: (content ++ [closing]) ∧ isName name = true ∧ content ≠ [] ∧
      ∀ c ∈ content, inside c = true := by
  unfold bracketed? at h
  split at h
  · cases h
  rename_i c rest hdrop
  simp only at h
  split at h
  · rename_i hparts
    obtain ⟨rfl, hname, hne, hclose⟩ := hparts
    cases h
    refine ⟨?_, hname, hne, ?_⟩
    · rw [← hclose, List.takeWhile_append_dropWhile, ← hdrop, List.takeWhile_append_dropWhile]
    · exact List.all_eq_true.1 List.all_takeWhile
  · cases h

theorem Index.isGrammatical_of_parse {token index : List Char} {i : Index}
    (h : Index.parse token index = .ok i) : i.isGrammatical = true := by
  unfold Index.parse at h
  split at h
  · obtain ⟨w, -, rfl⟩ := exists_of_map_ok h
    rfl
  · split at h
    · rename_i hname
      cases h
      simpa [isGrammatical] using hname
    · cases h

namespace Place

/-- Reading a place finds a name at the start of the token. -/
theorem parse_ok {token : List Char} {p : Place} (h : Place.parse token = .ok p) :
    p.isGrammatical = true ∧ ∃ name rest, token = name ++ rest ∧ isName name = true := by
  unfold Place.parse at h
  split at h
  · rename_i name index hbracket
    obtain ⟨i, hi, rfl⟩ := exists_of_map_ok h
    obtain ⟨htoken, hname, -, -⟩ := bracketed?_eq_some hbracket
    refine ⟨?_, name, _, htoken, hname⟩
    simp [isGrammatical, Cell.isGrammatical, Address.isGrammatical, hname,
      Index.isGrammatical_of_parse hi]
  split at h
  · rename_i name key hbracket
    cases h
    obtain ⟨htoken, hname, hne, hchars⟩ := bracketed?_eq_some hbracket
    have hkey : isKey key = true := isKey_iff.2 ⟨hne, hchars⟩
    refine ⟨?_, name, _, htoken, hname⟩
    simp [isGrammatical, Cell.isGrammatical, Address.isGrammatical, hname, hkey]
  split at h
  · rename_i hname
    cases h
    refine ⟨?_, token, [], by simp, hname⟩
    simpa [isGrammatical] using hname
  · cases h

theorem isGrammatical_of_parse {token : List Char} {p : Place} (h : Place.parse token = .ok p) :
    p.isGrammatical = true := (parse_ok h).1

end Place

namespace Operand

/-- Where a place can be read, an operand is that place: no place is written like a numeral. -/
theorem parse_place_iff {token : List Char} {p : Place} :
    Operand.parse token = .ok (.place p) ↔ Place.parse token = .ok p := by
  unfold Operand.parse
  constructor
  · intro h
    split at h
    · obtain ⟨w, -, hw⟩ := exists_of_map_ok h
      cases hw
    · obtain ⟨q, hq, hp⟩ := exists_of_map_ok h
      cases hp
      exact hq
  · intro h
    obtain ⟨-, name, rest, htoken, hname⟩ := Place.parse_ok h
    have hnumeral : isNumeral token = false := by
      rw [htoken]
      exact isNumeral_of_isName hname rest
    rw [hnumeral, h]
    rfl

theorem isGrammatical_of_parse {token : List Char} {x : Operand}
    (h : Operand.parse token = .ok x) : x.isGrammatical = true := by
  cases x with
  | literal w => rfl
  | place p => exact Place.isGrammatical_of_parse (parse_place_iff.1 h)

end Operand

theorem Condition.isGrammatical_of_parse {text : List Char} {c : Condition}
    (h : Condition.parse text = .ok c) : c.isGrammatical = true := by
  unfold Condition.parse at h
  split at h
  · cases h
  · obtain ⟨x, hx, rfl⟩ := exists_of_map_ok h
    exact Operand.isGrammatical_of_parse hx
  · obtain ⟨l, hl, hrest⟩ := exists_of_bind_ok h
    obtain ⟨r, hr, rfl⟩ := exists_of_map_ok hrest
    simp [isGrammatical, Operand.isGrammatical_of_parse hl, Operand.isGrammatical_of_parse hr]

/-! ## Readers and writers -/

/-- A reader and a writer fit together on the values of a kind: those are the values that can be
read at all, each is read back from its text, whatever text it was read from first, and different
ones have different texts. -/
structure RoundTrips {α : Type} (parse : List Char → Except OperandError α) (render : α → String)
    (admissible : α → Bool) : Prop where
  accepts : ∀ v, (∃ text, parse text = .ok v) ↔ admissible v = true
  reads_back : ∀ v, admissible v = true → parse (render v).toList = .ok v
  settles : ∀ text v, parse text = .ok v → parse (render v).toList = .ok v
  distinguishes : ∀ v w, admissible v = true → admissible w = true → v ≠ w → render v ≠ render w

theorem RoundTrips.of_parse_render {α : Type} {parse : List Char → Except OperandError α}
    {render : α → String} {admissible : α → Bool}
    (hback : ∀ v, admissible v = true → parse (render v).toList = .ok v)
    (hsound : ∀ text v, parse text = .ok v → admissible v = true) :
    RoundTrips parse render admissible where
  accepts v := ⟨fun ⟨text, h⟩ => hsound text v h, fun h => ⟨_, hback v h⟩⟩
  reads_back := hback
  settles text v h := hback v (hsound text v h)
  distinguishes v w hv hw hne heq := by
    -- one text cannot be read as two values
    have hv' := hback v hv
    rw [heq, hback w hw] at hv'
    exact hne (Except.ok.inj hv').symm

/-- **Texts of operands.** Operands, places and conditions fit their readers: what can be read are
the values with grammatical names and keys, with any literal; each of them is read back from its
text, and so is every value that was read from any text; different values have different texts. And
a token is read as a place operand exactly if it is read as that place. -/
theorem operand_texts_round_trip :
    RoundTrips Operand.parse Operand.render Operand.isGrammatical ∧
    RoundTrips Place.parse Place.render Place.isGrammatical ∧
    RoundTrips Condition.parse Condition.render Condition.isGrammatical ∧
    ∀ token p, Operand.parse token = .ok (.place p) ↔ Place.parse token = .ok p :=
  ⟨.of_parse_render (fun _ => Operand.parse_render) (fun _ _ => Operand.isGrammatical_of_parse),
    .of_parse_render (fun _ => Place.parse_render) (fun _ _ => Place.isGrammatical_of_parse),
    .of_parse_render (fun _ => Condition.parse_render)
      (fun _ _ => Condition.isGrammatical_of_parse),
    fun _ _ => Operand.parse_place_iff⟩

/-- A numeral has many spellings, and what was read from any of them is written in one way. -/
example : (Operand.parse "a[-007]".toList).toOption.map Operand.render = some "a[-7]" := by
  decide

end LineAsm
