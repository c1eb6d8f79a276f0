import LineAsm.Proofs.Nesting

/-!
# Bodies on their own

A body is read inside its statement, with fewer levels left than the statement has. Apart from the
fault that says there are no levels left, nothing in it depends on that: with more levels it is read
in the same way, faults included. So a body means what its text means alone.

Results:
* `Shape.text_of_decode`: a statement keeps the text that it was read from.
* `Shape.length_chain_le`: a chain is at most one longer than there are levels.
* `Shape.decode_more_room`: with more levels a statement is read in the same way.
* `bodies_read_alone`: every statement of a chain is what its text is alone, and its text is a slice
  of the text around it.
-/
namespace LineAsm

open Text

namespace Statement

/-- The fault of a statement whose body lies too deep. -/
def exceedsNesting : Statement → Bool
  | simple _ (.fault (.malformed _ .nesting)) => true
  | _ => false

end Statement

/-! ## Texts and levels -/

namespace Shape

variable {shape : Shape} {nested : Form → List Char → Except Fault Statement} {text : String}
  {s : Statement} {room : Nat}

theorem text_of_decode (h : shape.decode nested text = some s) : s.text = text := by
  rcases shape.decode_cases with hnone | ⟨r, hr⟩ | ⟨header, form, body, -, hheader⟩
  · rw [hnone] at h
    cases h
  · rw [hr] at h
    cases r <;> (cases h; rfl)
  · rw [hheader] at h
    cases hnested : nested form body <;> (rw [hnested] at h; cases h; rfl)

/-- The body of a block is read from what the shape offers, and keeps this text. -/
theorem offers_of_decode_block {text' : String} {header : Header} {b : Statement}
    (h : shape.decode (decodeNested room) text = some (.block text' header b)) :
    shape.Offers b.text.toList := by
  obtain ⟨form, body, hoffers, hbody, -⟩ := decode_block h
  cases room with
  | zero => cases hbody
  | succ less =>
    rw [text_of_decode (decodeNested_succ.1 hbody), String.toList_ofList]
    exact hoffers

/-- Every level makes a chain longer by one. -/
theorem length_chain_le (h : shape.decode (decodeNested room) text = some s) :
    s.chain.length ≤ room + 1 := by
  induction s generalizing shape text room with
  | simple text' a => simp [Statement.chain]
  | block text' header b ih =>
    obtain ⟨form, body, -, hbody, -⟩ := decode_block h
    cases room with
    | zero => cases hbody
    | succ less =>
      have hlen := ih (decodeNested_succ.1 hbody)
      simp only [Statement.chain, List.length_cons]
      omega

end Shape

/-- Where there are levels left, a refused body is refused for what it is. -/
theorem decodeNested_error {room : Nat} {form : Form} {body : List Char} {fault : Fault}
    (h : decodeNested (room + 1) form body = .error fault) (room' : Nat) :
    decodeNested (room' + 1) form body = .error fault := by
  rw [decodeNested] at h ⊢
  cases hshape : Shape.of body with
  | declaration | unrecognized =>
    rw [hshape] at h
    exact h
  | assembly | conditional | print =>
    -- a body of an executable shape is never refused
    rw [hshape] at h
    cases h

/-- **More levels do not matter.** A statement in which no body lies too deep is read in the same
way when there are more levels. -/
theorem Shape.decode_more_room {shape : Shape} {text : String} {s : Statement} {room room' : Nat}
    (h : shape.decode (decodeNested room) text = some s)
    (hs : ∀ t ∈ s.chain, t.exceedsNesting = false) (hle : room ≤ room') :
    shape.decode (decodeNested room') text = some s := by
  induction s generalizing shape text room room' with
  | simple text' a =>
    rcases shape.decode_cases with hnone | ⟨r, hr⟩ | ⟨header, form, body, -, hheader⟩
    · rw [hnone] at h
      cases h
    · rw [hr] at h ⊢
      exact h
    · rw [hheader] at h ⊢
      cases hnested : decodeNested room form body with
      | ok b =>
        rw [hnested] at h
        cases h
      | error fault =>
        rw [hnested] at h
        cases room with
        | zero =>
          -- the body was refused because it lies too deep, which the chain excludes
          cases hnested
          cases h
          cases hs _ List.mem_cons_self
        | succ less =>
          obtain ⟨less', rfl⟩ : ∃ less', room' = less' + 1 := ⟨room' - 1, by omega⟩
          rw [decodeNested_error hnested less']
          exact h
  | block text' header b ih =>
    simp only [Statement.chain, List.mem_cons, forall_eq_or_imp] at hs
    obtain ⟨form, body, -, hbody, hread⟩ := decode_block h
    apply hread
    cases room with
    | zero => cases hbody
    | succ less =>
      obtain ⟨less', rfl⟩ : ∃ less', room' = less' + 1 := ⟨room' - 1, by omega⟩
      rw [decodeNested_succ] at hbody ⊢
      exact ih hbody hs.2 (by omega)

/-! ## Chains -/

theorem Statement.exists_chain_eq_cons (s : Statement) : ∃ bodies, s.chain = s :: bodies := by
  cases s <;> exact ⟨_, rfl⟩

/-- What was read with some of the levels is read with all of them. -/
theorem Shape.decode_alone {text : String} {s : Statement} {room : Nat}
    (h : (Shape.of text.toList).decode (decodeNested room) text = some s)
    (hs : ∀ t ∈ s.chain, t.exceedsNesting = false) (hroom : room ≤ maxNesting) :
    Statement.decode s.text = some s := by
  rw [text_of_decode h]
  exact decode_more_room h hs hroom

/-- Inside a text that was read with some of the levels, bodies mean what they mean alone. -/
theorem Shape.chain_of_decode {text : String} {s : Statement} {room : Nat}
    (h : (Shape.of text.toList).decode (decodeNested room) text = some s)
    (hs : ∀ t ∈ s.chain, t.exceedsNesting = false) (hroom : room ≤ maxNesting) :
    (∀ b ∈ s.chain, Statement.decode b.text = some b) ∧
      s.chain.IsChain fun outer b => IsSlice b.text.toList outer.text.toList := by
  induction s generalizing text room with
  | simple text' a =>
    exact ⟨List.forall_mem_singleton.2 (decode_alone h hs hroom), .singleton _⟩
  | block text' header b ih =>
    have hself := decode_alone h hs hroom
    have hslice := isSlice_of_offers (offers_of_decode_block h)
    rw [← text_of_decode h] at hslice
    obtain ⟨form, body, -, hbody, -⟩ := decode_block h
    cases room with
    | zero => cases hbody
    | succ less =>
      simp only [Statement.chain, List.mem_cons, forall_eq_or_imp] at hs ⊢
      have hread : (Shape.of (String.ofList body).toList).decode (decodeNested less)
          (String.ofList body) = some b := by
        rw [String.toList_ofList]
        exact decodeNested_succ.1 hbody
      obtain ⟨halone, hchain⟩ := ih hread hs.2 (by omega)
      obtain ⟨bodies, hbodies⟩ := b.exists_chain_eq_cons
      refine ⟨⟨hself, halone⟩, ?_⟩
      rw [hbodies] at hchain ⊢
      exact List.isChain_cons_cons.2 ⟨hslice, hchain⟩

/-- **Bodies read alone.** If no body of a text lies too deep, the statements nested in it at any
level are what their texts are alone, and each of these texts is a piece, without outer blanks, of
the text of the statement around it. -/
theorem bodies_read_alone (text : String) (s : Statement) (h : Statement.decode text = some s)
    (hs : ∀ t ∈ s.chain, t.exceedsNesting = false) :
    s.text = text ∧ (∀ b ∈ s.chain, Statement.decode b.text = some b) ∧
      s.chain.IsChain fun outer b => b.text.toList <:+: outer.text.toList ∧
        trim b.text.toList = b.text.toList := by
  obtain ⟨halone, hchain⟩ := Shape.chain_of_decode h hs (Nat.le_refl _)
  exact ⟨Shape.text_of_decode h, halone,
    hchain.imp fun _ _ hslice => ⟨hslice.within, hslice.trimmed⟩⟩

/-- A loop around a conditional around a body with a fault, with blanks in odd places. -/
theorem bodies_read_alone_faulty :
    let text := "loop for 2,  if x then  add 1 2 \t "
    let body := Statement.simple "add 1 2"
      (.fault (.malformed (.operation (.arith .add)) (.operand (.malformed "1"))))
    let s := Statement.block text (.times (.literal 2))
      (.block "if x then  add 1 2" (.ifTrue (.nonzero (.place (.register "x")))) body)
    Statement.decode text = some s ∧ Statement.decode "add 1 2" = some body ∧
      s.chain.IsChain fun outer b => b.text.toList <:+: outer.text.toList ∧
        trim b.text.toList = b.text.toList := by
  intro text body s
  have hdecode : Statement.decode text = some s := by decide +kernel
  obtain ⟨-, halone, hchain⟩ := bodies_read_alone text s hdecode (by decide)
  exact ⟨hdecode, halone body (by decide), hchain⟩

end LineAsm
