import LineAsm.Proofs.Slices

/-!
# Bodies of statements

A header is read without its body: the text of a statement decides on its own what kind of statement
it is, what its header says and which part of it is the body. Only then the body is read, by the
same rules and with one level less. So as long as there are levels enough, it does not matter how
many.

Results:
* `Shape.decode_cases`: a text is nothing executable, an action, or a header around a body, whatever
  the reader of bodies.
* `Shape.decode_room`: a statement without faults is read in the same way wherever there is room for
  its chain.
* `IsBody text s`: the text can stand as a body, and then it is the statement `s`.
* `IsBodyText text`: the text can stand behind a header.
* `IsBody.decodeNested`: a body is read as it would be read alone.
-/
namespace LineAsm

open Text

/-! ## Headers -/

/-- The header of a loop with a condition. -/
def LoopKind.guarded (kind : LoopKind) (condition : Condition) : Header :=
  if kind = .doWhile then .doWhile condition else .whileTrue condition

section
variable {nested : Form → List Char → Except Fault Statement} {text : String} {rest : List Char}

theorem decodeLoop_times {count body : List Char} {x : Operand}
    (hkind : LoopKind.ofName? (lowerCase (rest.takeWhile (!isBlank ·))) = some .times)
    (hbody : countedBody? (trim (rest.dropWhile (!isBlank ·))) = some (count, body))
    (hcount : Operand.parse count = .ok x) :
    decodeLoop nested text rest = (nested (.loop .times) body).map (.block text (.times x)) := by
  simp only [decodeLoop, hkind, hbody, hcount]
  rfl

theorem decodeLoop_guarded {kind : LoopKind} {condition body : List Char} {c : Condition}
    (hkind : LoopKind.ofName? (lowerCase (rest.takeWhile (!isBlank ·))) = some kind)
    (hne : kind ≠ .times)
    (hbody : guardedBody? (trim (rest.dropWhile (!isBlank ·))) = some (condition, body))
    (hcondition : Condition.parse condition = .ok c) :
    decodeLoop nested text rest =
      (nested (.loop kind) body).map (.block text (kind.guarded c)) := by
  cases kind with
  | times => exact absurd rfl hne
  | whileTrue | doWhile =>
    simp only [decodeLoop, hkind, hbody, hcondition]
    rfl

end

theorem decodeLoop_cases (rest : List Char) :
    (∃ fault, ∀ nested text, decodeLoop nested text rest = .error fault) ∨
    (∃ header form body, IsSlice body rest ∧ ∀ nested text,
      decodeLoop nested text rest = (nested form body).map (.block text header)) := by
  have htail : trim (rest.dropWhile (!isBlank ·)) <:+: rest :=
    (isSlice_trim _).within.trans (List.dropWhile_suffix _).isInfix
  cases hkind : LoopKind.ofName? (lowerCase (rest.takeWhile (!isBlank ·))) with
  | none => exact .inl ⟨_, fun _ _ => by simp only [decodeLoop, hkind]; rfl⟩
  | some kind =>
    by_cases htimes : kind = .times
    · subst htimes
      cases hbody : countedBody? (trim (rest.dropWhile (!isBlank ·))) with
      | none => exact .inl ⟨_, fun _ _ => by simp only [decodeLoop, hkind, hbody]; rfl⟩
      | some parts =>
        obtain ⟨count, body⟩ := parts
        cases hcount : Operand.parse count with
        | error e => exact .inl ⟨_, fun _ _ => by simp only [decodeLoop, hkind, hbody, hcount]; rfl⟩
        | ok x =>
          have hslice := (countedBody?_isSlice (trim_trim _) hbody).of_within htail
          exact .inr ⟨_, _, _, hslice, fun _ _ => decodeLoop_times hkind hbody hcount⟩
    · cases hbody : guardedBody? (trim (rest.dropWhile (!isBlank ·))) with
      | none =>
        exact .inl ⟨.malformed (.loop kind) (.loopShape kind), fun _ _ => by
          cases kind <;> simp [decodeLoop, hkind, hbody] at htimes ⊢⟩
      | some parts =>
        obtain ⟨condition, body⟩ := parts
        cases hcondition : Condition.parse condition with
        | error e =>
          exact .inl ⟨.malformed (.loop kind) (.operand e), fun _ _ => by
            cases kind <;> simp [decodeLoop, hkind, hbody, hcondition] at htimes ⊢ <;> rfl⟩
        | ok c =>
          have hslice := (guardedBody?_isSlice (trim_trim _) hbody).of_within htail
          exact .inr ⟨_, _, _, hslice, fun _ _ => decodeLoop_guarded hkind htimes hbody hcondition⟩

theorem decodeAssembly_cases (mnemonic rest : List Char) :
    (∃ r : Except Fault Action, ∀ nested text,
      decodeAssembly nested text mnemonic rest = r.map (.simple text)) ∨
    (∃ header form body, IsSlice body rest ∧ ∀ nested text,
      decodeAssembly nested text mnemonic rest = (nested form body).map (.block text header)) := by
  by_cases hloop : lowerCase mnemonic = "loop"
  · rcases decodeLoop_cases rest with ⟨fault, h⟩ | ⟨header, form, body, hslice, h⟩
    · exact .inl ⟨.error fault, fun _ _ => by simp only [decodeAssembly, if_pos hloop, h]; rfl⟩
    · exact .inr ⟨header, form, body, hslice, fun _ _ => by
        simp only [decodeAssembly, if_pos hloop, h]⟩
  · left
    cases hname : Mnemonic.ofName? (lowerCase mnemonic) with
    | none =>
      exact ⟨.error (.unknownCommand (lowerCase mnemonic)), fun _ _ => by
        simp only [decodeAssembly, if_neg hloop, hname]; rfl⟩
    | some m =>
      exact ⟨(m.read (words isSeparator rest)).mapError (.malformed (.operation m)), fun _ _ => by
        simp only [decodeAssembly, if_neg hloop, hname]⟩

theorem decodeConditional_cases (condition : List Char) (body : Option (List Char)) :
    (∃ r : Except Fault Action, ∀ nested text,
      decodeConditional nested text condition body = r.map (.simple text)) ∨
    (∃ header form body', body = some body' ∧ ∀ nested text,
      decodeConditional nested text condition body =
        (nested form body').map (.block text header)) := by
  cases hcondition : Condition.parse condition with
  | error e =>
    exact .inl ⟨.error (.malformed .conditional (.operand e)), fun _ _ => by
      simp only [decodeConditional, hcondition]; rfl⟩
  | ok c =>
    cases body with
    | none =>
      exact .inl ⟨.ok (.idle c), fun _ _ => by simp only [decodeConditional, hcondition]; rfl⟩
    | some body =>
      exact .inr ⟨.ifTrue c, .conditional, body, rfl, fun _ _ => by
        simp only [decodeConditional, hcondition]; rfl⟩

/-- Whatever the reader of bodies, a text is nothing executable, an action or its fault, or a header
around a body that its shape offers. -/
theorem Shape.decode_cases (shape : Shape) :
    (∀ nested text, shape.decode nested text = none) ∨
    (∃ r : Except Fault Action, ∀ nested text,
      shape.decode nested text = some (.orFault text (r.map (.simple text)))) ∨
    (∃ header form body, shape.Offers body ∧ ∀ nested text, shape.decode nested text =
      some (.orFault text ((nested form body).map (.block text header)))) := by
  cases shape with
  | declaration | unrecognized => exact .inl fun _ _ => rfl
  | assembly mnemonic rest =>
    right
    rcases decodeAssembly_cases mnemonic rest with ⟨r, h⟩ | ⟨header, form, body, hslice, h⟩
    · exact .inl ⟨r, fun _ _ => by simp only [Shape.decode, h]⟩
    · exact .inr ⟨header, form, body, hslice, fun _ _ => by simp only [Shape.decode, h]⟩
  | conditional condition body =>
    right
    rcases decodeConditional_cases condition body with ⟨r, h⟩ | ⟨header, form, body', hbody, h⟩
    · exact .inl ⟨r, fun _ _ => by simp only [Shape.decode, h]⟩
    · exact .inr ⟨header, form, body', hbody, fun _ _ => by simp only [Shape.decode, h]⟩
  | print items =>
    refine .inr (.inl ⟨((printItems items).map .print).mapError (.malformed .print), ?_⟩)
    intro nested text
    simp only [Shape.decode]
    cases printItems items <;> rfl

/-! ## Levels -/

/-- The statement is a fault itself; what is nested in it does not count. -/
def Statement.isFault : Statement → Bool
  | simple _ (.fault _) => true
  | _ => false

theorem Statement.one_le_length_chain (s : Statement) : 1 ≤ s.chain.length := by
  cases s <;> simp [chain]

/-- A nested body is read with one level less. -/
theorem decodeNested_succ {room : Nat} {form : Form} {body : List Char} {s : Statement} :
    decodeNested (room + 1) form body = .ok s ↔
      (Shape.of body).decode (decodeNested room) (String.ofList body) = some s := by
  rw [decodeNested]
  cases hshape : Shape.of body with
  | declaration => simp [Shape.decode]
  | _ =>
    simp only
    split
    · rename_i s' hs'
      simp [hs']
    · rename_i hs'
      simp [hs']

/-- A block is read from a header and a body, and from these by any reader that reads the body. -/
theorem Shape.decode_block {shape : Shape} {nested : Form → List Char → Except Fault Statement}
    {text text' : String} {header : Header} {b : Statement}
    (h : shape.decode nested text = some (.block text' header b)) :
    ∃ form body, shape.Offers body ∧ nested form body = .ok b ∧
      ∀ nested', nested' form body = .ok b →
        shape.decode nested' text = some (.block text' header b) := by
  rcases shape.decode_cases with hnone | ⟨r, hr⟩ | ⟨header', form, body, hoffers, hheader⟩
  · rw [hnone] at h; cases h
  · rw [hr] at h
    cases r <;> cases h
  · rw [hheader] at h
    cases hnested : nested form body with
    | error fault => rw [hnested] at h; cases h
    | ok b' =>
      rw [hnested] at h
      cases h
      exact ⟨form, body, hoffers, hnested, fun nested' h' => by rw [hheader, h']; rfl⟩

/-- A statement that is neither a block nor a fault is read without a reader of bodies. -/
theorem Shape.decode_simple {shape : Shape} {nested : Form → List Char → Except Fault Statement}
    {text text' : String} {a : Action} (ha : (Statement.simple text' a).isFault = false)
    (h : shape.decode nested text = some (.simple text' a))
    (nested' : Form → List Char → Except Fault Statement) :
    shape.decode nested' text = some (.simple text' a) := by
  rcases shape.decode_cases with hnone | ⟨r, hr⟩ | ⟨header, form, body, -, hheader⟩
  · rw [hnone] at h; cases h
  · rw [hr] at h ⊢; exact h
  · rw [hheader] at h
    cases hnested : nested form body with
    | error fault => rw [hnested] at h; cases h; cases ha
    | ok b => rw [hnested] at h; cases h

/-- **Levels do not matter.** A statement without faults is read in the same way wherever there is
room for its chain. -/
theorem Shape.decode_room {s : Statement} (hs : ∀ t ∈ s.chain, t.isFault = false) {shape : Shape}
    {text : String} {room room' : Nat} (h : shape.decode (decodeNested room) text = some s)
    (hroom : s.chain.length ≤ room' + 1) : shape.decode (decodeNested room') text = some s := by
  -- by induction on the nesting of the statement: a body has one level less on both sides
  induction s generalizing shape text room room' with
  | simple text' a => exact decode_simple (hs _ (by simp [Statement.chain])) h _
  | block text' header b ih =>
    simp only [Statement.chain, List.mem_cons, forall_eq_or_imp, List.length_cons] at hs hroom
    obtain ⟨form, body, -, hbody, hread⟩ := decode_block h
    apply hread
    have hlen := b.one_le_length_chain
    obtain ⟨less', rfl⟩ : ∃ less', room' = less' + 1 := ⟨room' - 1, by omega⟩
    cases room with
    | zero => cases hbody
    | succ less =>
      rw [decodeNested_succ] at hbody ⊢
      exact ih hs.2 hbody (by omega)

/-! ## Bodies -/

/-- A text that can stand as a body, and the statement that it is: without outer blanks, on one
line, without faults and with a level to spare. -/
structure IsBody (text : String) (s : Statement) : Prop where
  trimmed : trim text.toList = text.toList
  oneLine : isOneLine text.toList = true
  decoded : Statement.decode text = some s
  faultless : ∀ t ∈ s.chain, t.isFault = false
  nesting : s.chain.length ≤ maxNesting

/-! ## First letters -/

/-- The text starts with a letter. -/
def StartsWithLetter (cs : List Char) : Prop := ∃ c rest, cs = c :: rest ∧ c.isAlpha = true

theorem assembly?_startsWithLetter {cs : List Char} {parts : List Char × List Char}
    (h : assembly? cs = some parts) : StartsWithLetter cs := by
  cases cs with
  | nil => cases h
  | cons c rest =>
    refine ⟨c, rest, rfl, ?_⟩
    by_cases hc : isMnemonicChar c = true
    · simp only [assembly?, List.takeWhile_cons_of_pos hc] at h
      split at h
      · rename_i hcond
        exact hcond.1
      · cases h
    · simp [assembly?, hc] at h

theorem isPrefixOf?_startsWithLetter {c : Char} {word cs rest : List Char} (hc : c.isAlpha = true)
    (h : (c :: word).isPrefixOf? cs = some rest) : StartsWithLetter cs :=
  ⟨c, word ++ rest, (List.isPrefixOf?_eq_some_iff_append_eq.1 h).symm, hc⟩

theorem conditional?_startsWithLetter {cs : List Char} {parts : List Char × Option (List Char)}
    (h : conditional? cs = some parts) : StartsWithLetter cs := by
  unfold conditional? at h
  split at h
  · cases h
  · rename_i hif
    exact isPrefixOf?_startsWithLetter (by decide) hif

theorem keywordShape_startsWithLetter {cs : List Char} (h : keywordShape cs ≠ .unrecognized) :
    StartsWithLetter cs := by
  unfold keywordShape at h
  split at h
  · rename_i hif
    exact conditional?_startsWithLetter hif
  · split at h
    · rename_i hprint
      exact isPrefixOf?_startsWithLetter (by decide) hprint
    · exact absurd rfl h

/-- The text of an executable statement starts with a letter. -/
theorem startsWithLetter_of_decode {text : String} {s : Statement}
    (h : Statement.decode text = some s) : StartsWithLetter text.toList := by
  have hshape : Shape.of text.toList ≠ .declaration ∧ Shape.of text.toList ≠ .unrecognized := by
    constructor <;> (intro hshape; simp [Statement.decode, hshape, Shape.decode] at h)
  obtain ⟨hdeclaration, hunrecognized⟩ := hshape
  cases hasm : assembly? text.toList with
  | some parts => exact assembly?_startsWithLetter hasm
  | none =>
    apply keywordShape_startsWithLetter
    unfold Shape.of at hdeclaration hunrecognized
    split at hdeclaration
    · exact absurd rfl hdeclaration
    · rename_i hdeclare
      simpa [hdeclare, hasm] using hunrecognized

/-- A text that can stand behind a header, whatever is read from it: without outer blanks, on one
line, and with a letter in front. -/
structure IsBodyText (text : List Char) : Prop where
  trimmed : trim text = text
  oneLine : isOneLine text = true
  letter : StartsWithLetter text

namespace IsBody

variable {text : String} {s : Statement}

theorem isBodyText (h : IsBody text s) : IsBodyText text.toList :=
  ⟨h.trimmed, h.oneLine, startsWithLetter_of_decode h.decoded⟩

/-- A body is read as it would be read alone. -/
theorem decodeNested (h : IsBody text s) (form : Form) :
    decodeNested maxNesting form text.toList = .ok s := by
  have hdecode : (Shape.of text.toList).decode (LineAsm.decodeNested maxNesting) text = some s :=
    h.decoded
  show LineAsm.decodeNested (63 + 1) form text.toList = .ok s
  rw [decodeNested_succ, String.ofList_toList]
  exact Shape.decode_room h.faultless hdecode h.nesting

end IsBody

end LineAsm
