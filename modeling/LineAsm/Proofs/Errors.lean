import LineAsm.Proofs.Evaluation

/-!
# Errors that are returned and errors that are kept

An execution returns an error to what is around it, and a function body keeps the local errors of
its instructions. The two never mix: what is returned as fatal is not kept on the way, and what is
kept below a statement was met inside a call.

Results:
* `Evaluates.fatal`: a fatal error is the budget's own, unchanged by all loops and calls around it,
  and it is returned only when every step is used.
* `Evaluates.local_error`: a local error names the line of the statement and the calls that were
  active when the statement started. A function body returns none.
* `Evaluates.keeps`: the errors kept by a statement are local, and each was met inside at least one
  more call than the statement itself.
-/
namespace LineAsm

/-! ## Loops around errors -/

namespace Outcome

variable {line k : Nat} {m : Machine} {e : ExecError}

theorem inLoop_fatal (h : e.isFatal = true) : inLoop line k m e = ⟨m, some e⟩ := by
  unfold inLoop; rw [if_pos h]

theorem inLoop_local (h : e.isFatal = false) :
    inLoop line k m e = m.fail line (.inLoop k e.cause) := by
  unfold inLoop; rw [if_neg (by simp [h])]

end Outcome

/-! ## Returned errors -/

/-- The line on which a task reports local failures. A function body reports none. -/
def Task.line? : Task → Option Nat
  | .statement line _ => some line
  | .loop line _ _ _ => some line
  | .code _ => none

namespace Evaluates

variable {t : Task} {m : Machine} {n : Nat} {o : Outcome}

theorem fatal (h : Evaluates t m n o) :
    ∀ e, o.error? = some e → e.isFatal = true →
      e.cause = .budgetExhausted m.limits.maxSteps ∧ m.limits.maxSteps ≤ o.machine.steps := by
  induction h with
  | exhausted hs => intro e he _; cases he; exact ⟨rfl, hs⟩
  | action hs ha =>
    intro e he hf
    rw [((Action.exec_effect ha _ _ _).failed e he).2.1] at hf; cases hf
  | refused hs hf =>
    intro e he hf'
    cases he
    rw [Machine.entry_error hf] at hf'; cases hf'
  | called hs hf _ ih => exact ih
  | skipped hs hc => intro e he; cases he
  | taken hs hc _ ih => exact ih
  | looped hs hg _ ih => exact ih
  | loopEnds hg => intro e he; cases he
  | loopGoes hg hb _ _ ihl =>
    have hl := hb.grows.limits
    simp only at hl
    rw [hl] at ihl
    exact ihl
  | @loopFails _ _ _ _ _ _ _ e' hg _ ih =>
    intro e he hf
    cases hf' : e'.isFatal with
    | true =>
      rw [Outcome.inLoop_fatal hf'] at he ⊢
      cases he
      exact ih e' rfl hf
    | false =>
      rw [Outcome.inLoop_local hf'] at he
      cases he; cases hf
  | codeEnds => intro e he; cases he
  | codeGoes hi hf _ _ ihr => rw [Outcome.kept_limits, hi.grows.limits] at ihr; exact ihr
  | codeStops _ hf ih => exact ih

theorem local_error (h : Evaluates t m n o) :
    ∀ e, o.error? = some e → e.isFatal = false → t.line? = some e.line ∧ e.trace = m.frames := by
  induction h with
  | exhausted hs => intro e he hf; cases he; cases hf
  | action hs ha =>
    intro e he _
    obtain ⟨-, -, hl, ht⟩ := (Action.exec_effect ha _ _ _).failed e he
    exact ⟨by rw [hl]; rfl, ht⟩
  | refused hs hf => intro e he _; cases he; exact ⟨rfl, rfl⟩
  | called hs hf _ ih => intro e he hf; cases (ih e he hf).1
  | skipped hs hc => intro e he; cases he
  | taken hs hc _ ih => exact ih
  | looped hs hg _ ih => exact ih
  | loopEnds hg => intro e he; cases he
  | loopGoes hg hb _ _ ihl =>
    intro e he hf
    obtain ⟨h1, h2⟩ := ihl e he hf
    exact ⟨h1, h2.trans hb.grows.frames⟩
  | @loopFails _ _ _ _ _ _ _ e' hg hb ih =>
    intro e he hf
    cases hf' : e'.isFatal with
    | true => rw [Outcome.inLoop_fatal hf'] at he; cases he; rw [hf] at hf'; cases hf'
    | false =>
      rw [Outcome.inLoop_local hf'] at he
      cases he
      exact ⟨rfl, hb.grows.frames⟩
  | codeEnds => intro e he; cases he
  | codeGoes hi hf _ _ ihr => intro e he hf; cases (ihr e he hf).1
  | codeStops _ hfatal ih =>
    intro e he hf
    obtain ⟨e', he', hf'⟩ := Outcome.error_of_isFatal hfatal
    rw [he] at he'; cases he'
    rw [hf] at hf'; cases hf'

end Evaluates

/-! ## Kept errors -/

/-- Between the two states only local errors were kept, each met inside at least `depth` calls. -/
def Machine.Keeps (depth : Nat) (m m' : Machine) : Prop :=
  ∃ added, m'.errors.toList = m.errors.toList ++ added ∧
    ∀ e ∈ added, e.isFatal = false ∧ depth ≤ e.trace.length

namespace Machine.Keeps

variable {depth : Nat} {a b c : Machine}

theorem of_eq (h : b.errors = a.errors) : a.Keeps depth b :=
  ⟨[], by simp [h], by simp⟩

theorem trans (h : a.Keeps depth b) (h' : b.Keeps depth c) : a.Keeps depth c := by
  obtain ⟨x, hx, hx'⟩ := h
  obtain ⟨y, hy, hy'⟩ := h'
  refine ⟨x ++ y, by rw [hy, hx, List.append_assoc], ?_⟩
  intro e he
  rcases List.mem_append.mp he with he | he
  · exact hx' e he
  · exact hy' e he

theorem weaken {less : Nat} (h : a.Keeps depth b) (hd : less ≤ depth) : a.Keeps less b := by
  obtain ⟨x, hx, hx'⟩ := h
  exact ⟨x, hx, fun e he => ⟨(hx' e he).1, Nat.le_trans hd (hx' e he).2⟩⟩

theorem record {e : ExecError} (hf : e.isFatal = false) (hd : depth ≤ e.trace.length) :
    a.Keeps depth (a.record e) :=
  ⟨[e], by simp [Machine.record], by simp [hf, hd]⟩

end Machine.Keeps

/-- The least number of active calls in an error that the task keeps. A function body keeps its own
errors, a statement only those of the functions it calls. -/
def Task.depth (m : Machine) : Task → Nat
  | .code _ => m.frames.length
  | _ => m.frames.length + 1

theorem Evaluates.keeps {t : Task} {m : Machine} {n : Nat} {o : Outcome} (h : Evaluates t m n o) :
    m.Keeps (t.depth m) o.machine := by
  induction h with
  | exhausted hs => exact .of_eq rfl
  | action hs ha => exact .of_eq (Action.exec_effect ha _ _ _).errors
  | refused hs hf => exact .of_eq rfl
  | called hs hf _ ih => exact ih
  | skipped hs hc => exact .of_eq rfl
  | taken hs hc _ ih => exact ih
  | looped hs hg _ ih => exact ih
  | loopEnds hg => exact .of_eq rfl
  | loopGoes hg hb _ ihb ihl =>
    have hfr := hb.grows.frames
    simp only [Task.depth] at ihb ihl hfr ⊢
    rw [hfr] at ihl
    exact ihb.trans ihl
  | loopFails hg _ ih => rw [Outcome.machine_inLoop]; exact ih
  | codeEnds => exact .of_eq rfl
  | @codeGoes _ _ _ _ _ o _ hi hf _ ihi ihr =>
    have hfr := hi.grows.frames
    simp only [Task.depth] at ihi ihr ⊢
    rw [Outcome.kept_frames, hfr] at ihr
    refine ((ihi.weaken (Nat.le_succ _)).trans ?_).trans ihr
    -- the error of this instruction, if any, is kept under the calls of the body itself
    obtain ⟨m', error⟩ := o
    cases error with
    | none => exact .of_eq rfl
    | some e => exact .record hf (Nat.le_of_eq (by rw [(hi.local_error e rfl hf).2]))
  | codeStops _ hf ih => exact ih.weaken (Nat.le_succ _)

end LineAsm
