import LineAsm.Proofs.LooseEnds
import LineAsm.Proofs.RoundTrip
import LineAsm.Proofs.Spelling
import LineAsm.Proofs.Splitting

/-!
# Names that can be written

Whatever a text looks like, the names and keys in what is read from it follow the grammar: an
operand that does not is a fault, at any level of nesting. So they can be written again.

Results:
* `Mnemonic.isGrammatical_of_read`: operations.
* `Statement.isGrammatical_of_decode`: all actions of a statement.
* `Action.isGrammatical_dest`: the place that an action writes.
* `Writes.isGrammatical`: all actions of a source.
* `isStatement_token`: words and such a name are a line with one statement.
-/
namespace LineAsm

open Text

/-! ## What is read -/

theorem eq_ok_of_mapError {ε ε' α : Type} {f : ε → ε'} {x : Except ε α} {a : α}
    (h : x.mapError f = .ok a) : x = .ok a := by
  cases x with
  | error e => cases h
  | ok b => exact congrArg Except.ok (Except.ok.inj h)

theorem Mnemonic.isGrammatical_of_read {m : Mnemonic} {operands : List (List Char)} {a : Action}
    (h : m.read operands = .ok a) : a.isGrammatical = true := by
  unfold read at h
  split at h
  · obtain ⟨dest, hdest, h⟩ := exists_of_bind_ok h
    obtain ⟨src, hsrc, h⟩ := exists_of_bind_ok h
    cases h
    simp [Action.isGrammatical, Place.isGrammatical_of_parse (eq_ok_of_mapError hdest),
      Operand.isGrammatical_of_parse (eq_ok_of_mapError hsrc)]
  · obtain ⟨dest, hdest, h⟩ := exists_of_bind_ok h
    have hname := Place.isGrammatical_of_parse (eq_ok_of_mapError hdest)
    cases dest with
    | cell cell => cases h
    | register name =>
      obtain ⟨src, hsrc, h⟩ := exists_of_bind_ok h
      cases h
      simp only [Place.isGrammatical] at hname
      simp [Action.isGrammatical, hname, Operand.isGrammatical_of_parse (eq_ok_of_mapError hsrc)]
  · obtain ⟨src, hsrc, rfl⟩ := exists_of_map_ok h
    exact Operand.isGrammatical_of_parse (eq_ok_of_mapError hsrc)
  · obtain ⟨dest, hdest, rfl⟩ := exists_of_map_ok h
    exact Place.isGrammatical_of_parse (eq_ok_of_mapError hdest)
  · split at h
    · rename_i hname
      cases h
      simpa [Action.isGrammatical] using hname
    · cases h
  · cases h

namespace Statement

/-- The names of all actions in the statement follow the grammar. -/
def IsGrammatical (s : Statement) : Prop := ∀ a ∈ s.actions, a.isGrammatical = true

theorem isGrammatical_simple {text : String} {a : Action} (h : a.isGrammatical = true) :
    (simple text a).IsGrammatical := List.forall_mem_singleton.2 h

/-- A fault names nothing. -/
theorem isGrammatical_orFault {text : String} {r : Except Fault Statement}
    (h : ∀ s, r = .ok s → s.IsGrammatical) : (orFault text r).IsGrammatical := by
  cases r with
  | ok s => exact h s rfl
  | error fault => exact isGrammatical_simple rfl

end Statement

section
variable {nested : Form → List Char → Except Fault Statement} {text : String} {s : Statement}
  (hnested : ∀ form body b, nested form body = .ok b → b.IsGrammatical)
include hnested

theorem isGrammatical_of_decodeAssembly {mnemonic rest : List Char}
    (h : decodeAssembly nested text mnemonic rest = .ok s) : s.IsGrammatical := by
  simp only [decodeAssembly] at h
  split at h
  · rcases decodeLoop_cases rest with ⟨fault, hfault⟩ | ⟨header, form, body, -, hbody⟩
    · rw [hfault] at h
      cases h
    · rw [hbody] at h
      obtain ⟨b, hb, rfl⟩ := exists_of_map_ok h
      exact hnested form body b hb
  · split at h
    · cases h
    · obtain ⟨a, ha, rfl⟩ := exists_of_map_ok h
      exact Statement.isGrammatical_simple (Mnemonic.isGrammatical_of_read (eq_ok_of_mapError ha))

theorem isGrammatical_of_decodeConditional {condition : List Char} {body : Option (List Char)}
    (h : decodeConditional nested text condition body = .ok s) : s.IsGrammatical := by
  obtain ⟨c, -, h⟩ := exists_of_bind_ok h
  cases body with
  | none =>
    cases h
    exact Statement.isGrammatical_simple rfl
  | some body =>
    obtain ⟨b, hb, h⟩ := exists_of_bind_ok h
    cases h
    exact hnested _ body b hb

/-- A statement follows the grammar if its body does, whoever reads the body. -/
theorem Shape.isGrammatical_of_decode {shape : Shape} (h : shape.decode nested text = some s) :
    s.IsGrammatical := by
  cases shape with
  | declaration | unrecognized => cases h
  | assembly mnemonic rest =>
    cases h
    exact Statement.isGrammatical_orFault fun _ => isGrammatical_of_decodeAssembly hnested
  | conditional condition body =>
    cases h
    exact Statement.isGrammatical_orFault fun _ => isGrammatical_of_decodeConditional hnested
  | print items =>
    cases h
    refine Statement.isGrammatical_orFault fun s hs => ?_
    obtain ⟨is, -, rfl⟩ := exists_of_map_ok (eq_ok_of_mapError hs)
    exact Statement.isGrammatical_simple rfl

end

theorem isGrammatical_of_decodeNested {room : Nat} {form : Form} {body : List Char} {b : Statement}
    (h : decodeNested room form body = .ok b) : b.IsGrammatical := by
  induction room generalizing form body b with
  | zero => cases h
  | succ room ih => exact Shape.isGrammatical_of_decode (fun _ _ _ => ih) (decodeNested_succ.1 h)

/-- **What is read follows the grammar**, at any level of nesting. -/
theorem Statement.isGrammatical_of_decode {text : String} {s : Statement}
    (h : Statement.decode text = some s) : s.IsGrammatical :=
  Shape.isGrammatical_of_decode (fun _ _ _ => isGrammatical_of_decodeNested) h

theorem Action.isGrammatical_dest {a : Action} (h : a.isGrammatical = true) {dest : Place}
    (hdest : a.dest? = some dest) : dest.isGrammatical = true := by
  cases a with
  | mov _ _ =>
    cases hdest
    simp only [isGrammatical, Bool.and_eq_true] at h
    exact h.1
  | arith _ _ _ =>
    cases hdest
    simp only [isGrammatical, Bool.and_eq_true] at h
    exact h.1
  | pop _ =>
    cases hdest
    exact h
  | push | call | print | idle | fault => cases hdest

/-- What is written in a source follows the grammar. -/
theorem Writes.isGrammatical {source : String} {a : Action} (h : Writes source a) :
    a.isGrammatical = true := by
  obtain ⟨s, -, statement, hdecode, ha⟩ := h
  exact Statement.isGrammatical_of_decode hdecode a ha

/-! ## Lines -/

theorem undivided_of_not_mem {cs : List Char} (h : ';' ∉ cs) (quoted : Bool) :
    Undivided quoted cs := by
  induction cs generalizing quoted with
  | nil => exact undivided_nil quoted
  | cons c cs ih =>
    rw [List.mem_cons, not_or] at h
    exact undivided_cons.2 ⟨fun hdivides => h.1 hdivides.1.symm, ih h.2 _⟩

/-- Words and a token after them are a statement that fits on a line. -/
theorem isStatement_token {front cs : List Char} (hletter : StartsWithLetter front)
    (hsemi : ';' ∉ front) (hline : '\n' ∉ front) (hcs : IsToken cs) :
    IsStatement (front ++ cs) ∧ '\n' ∉ front ++ cs := by
  have hsemi' : ';' ∉ cs := fun hmem => absurd (hcs.2 _ hmem) (by decide)
  have hline' : '\n' ∉ cs := fun hmem => absurd (hcs.2 _ hmem) (by decide)
  refine ⟨⟨trim_eq_self_iff.2 ⟨?_, hcs.last_not_blank front⟩, ?_, ?_⟩, ?_⟩
  · obtain ⟨c, rest, hfront⟩ := List.exists_cons_of_ne_nil hletter.ne_nil
    have hhead := hletter.head_not_blank
    rw [hfront] at hhead ⊢
    exact hhead
  · simp [hcs.1]
  · exact undivided_of_not_mem (by simp [hsemi, hsemi']) false
  · simp [hline, hline']

end LineAsm
