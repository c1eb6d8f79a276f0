import LineAsm.Engine
import LineAsm.Proofs.Representatives

/-!
# Advisers only advise

The predictor is asked in the middle of the compilation, between a line and the next, and the other
two advisers are asked when the run is over. None of them is given the program or the machine to
change: they can fail the request, and they can fill the two fields of the report that are theirs.

Results:
* `Engine.Passes`, `Engine.FailsFirst`: what the predictor makes of the lines of a source.
* `Engine.foldlM_line_ok`, `Engine.foldlM_line_error`: the compilation with a predictor is the one
  without, up to the first failure.
* `Engine.conclude_error_iff`, `Engine.conclude_ok`: what the other two advisers decide.
* `advisers_only_advise`: all of it for a whole request.
-/
namespace LineAsm

/-- The instructions of a trace, without their times. -/
def untimed (trace : List TraceEntry) : List (Nat × String) :=
  trace.map fun entry => (entry.line, entry.instruction)

theorem untimed_stamp (clock : Nat → Nat) (code : List Instruction) :
    untimed (stamp clock code) = code.map fun i => (i.line, i.text) := by
  refine List.ext_getElem? fun n => ?_
  cases h : code[n]? <;> simp [untimed, stamp, h]

/-- Two reports differ in their advisories, their suggestions and the times of their traces only. -/
def Report.EqUpToAdvice (r s : Report) : Prop :=
  r = { s with advisories := r.advisories, suggestions := r.suggestions, trace := r.trace } ∧
    untimed r.trace = untimed s.trace

namespace Engine

variable {e : Engine}

/-! ## The predictor -/

/-- The predictor has an answer for every one of the lines. -/
def Passes (e : Engine) (lines : List (Nat × List Char)) : Prop :=
  ∀ l ∈ lines, ∃ prediction, e.predict (String.ofList l.2) = .ok prediction

/-- The predictor fails on one of the lines and on none before it. -/
def FailsFirst (e : Engine) (lines : List (Nat × List Char)) (failure : AdviserFailure) : Prop :=
  ∃ before l after, lines = before ++ l :: after ∧ e.Passes before ∧
    e.predict (String.ofList l.2) = .error failure

/-- The advisory on a line that the predictor finds suspicious. -/
def advisory? (e : Engine) (l : Nat × List Char) : Option Advisory :=
  match e.predict (String.ofList l.2) with
  | .ok prediction => if prediction.suspicious then some ⟨l.1, prediction.score⟩ else none
  | .error _ => none

theorem passes_or_failsFirst (e : Engine) (lines : List (Nat × List Char)) :
    e.Passes lines ∨ ∃ failure, e.FailsFirst lines failure := by
  induction lines with
  | nil => exact .inl (by simp [Passes])
  | cons l lines ih =>
    cases hl : e.predict (String.ofList l.2) with
    | error failure => exact .inr ⟨failure, [], l, lines, rfl, by simp [Passes], hl⟩
    | ok prediction =>
      rcases ih with hpass | ⟨failure, before, l', after, rfl, hpass, hfail⟩
      · exact .inl (List.forall_mem_cons.2 ⟨⟨prediction, hl⟩, hpass⟩)
      · refine .inr ⟨failure, l :: before, l', after, rfl, ?_, hfail⟩
        exact List.forall_mem_cons.2 ⟨⟨prediction, hl⟩, hpass⟩

theorem Passes.not_failsFirst {lines : List (Nat × List Char)} (h : e.Passes lines)
    (failure : AdviserFailure) : ¬ e.FailsFirst lines failure := by
  rintro ⟨before, l, after, rfl, -, hfail⟩
  obtain ⟨prediction, hok⟩ := h l (by simp)
  cases hok.symm.trans hfail

section
variable {l : Nat × List Char} (b : Builder) (advisories : Array Advisory)

theorem line_ok {prediction : Prediction} (h : e.predict (String.ofList l.2) = .ok prediction) :
    e.line (b, advisories) l =
      .ok (b.line l.1 (lineStatements l.2), advisories ++ (e.advisory? l).toList) := by
  unfold line advisory?
  simp only [h]
  cases hs : prediction.suspicious <;> simp [hs, bind, Except.bind, pure, Except.pure]

theorem line_error {failure : AdviserFailure} (h : e.predict (String.ofList l.2) = .error failure) :
    e.line (b, advisories) l = .error failure := by
  unfold line
  simp only [h]
  rfl

end

/-- **Predictor.** As long as the predictor has answers, the lines are compiled as if it were not
there, and its advisories are collected beside them. -/
theorem foldlM_line_ok {lines : List (Nat × List Char)} (h : e.Passes lines) (b : Builder)
    (advisories : Array Advisory) :
    lines.foldlM e.line (b, advisories) =
      .ok (lines.foldl (fun b l => b.line l.1 (lineStatements l.2)) b,
        advisories ++ lines.filterMap e.advisory?) := by
  induction lines generalizing b advisories with
  | nil => simp [pure, Except.pure]
  | cons l lines ih =>
    obtain ⟨⟨prediction, hl⟩, hlines⟩ := List.forall_mem_cons.1 h
    rw [List.foldlM_cons, line_ok b advisories hl]
    show lines.foldlM e.line _ = _
    rw [ih hlines]
    cases hadvisory : e.advisory? l <;> simp [hadvisory]

theorem foldlM_line_error {lines : List (Nat × List Char)} {failure : AdviserFailure}
    (h : e.FailsFirst lines failure) (b : Builder) (advisories : Array Advisory) :
    lines.foldlM e.line (b, advisories) = .error failure := by
  obtain ⟨before, l, after, rfl, hpass, hfail⟩ := h
  rw [List.foldlM_append, foldlM_line_ok hpass]
  show (l :: after).foldlM e.line _ = _
  rw [List.foldlM_cons, line_error _ _ hfail]
  rfl

theorem FailsFirst.unique {lines : List (Nat × List Char)} {failure failure' : AdviserFailure}
    (h : e.FailsFirst lines failure) (h' : e.FailsFirst lines failure') : failure = failure' :=
  Except.error.inj ((foldlM_line_error h {} #[]).symm.trans (foldlM_line_error h' {} #[]))

theorem execute_of_failsFirst {source : String} {failure : AdviserFailure} {clock : Nat → Nat}
    (h : e.FailsFirst (codeLines source) failure) : e.execute clock source = .error failure := by
  unfold execute prepare
  rw [foldlM_line_error h]
  rfl

theorem execute_of_passes {source : String} {clock : Nat → Nat}
    (h : e.Passes (codeLines source)) :
    e.execute clock source =
      e.conclude source (compile source, (codeLines source).filterMap e.advisory?)
        (((compile source).machine e.limits).run (compile source).code) clock := by
  have hprepare : e.prepare source =
      .ok (compile source, (codeLines source).filterMap e.advisory?) := by
    unfold prepare
    rw [foldlM_line_ok h]
    simp [bind, Except.bind, pure, Except.pure, compile]
  -- the machine is given the shared program, which is the compiled one
  simp only [execute, hprepare, bind, Except.bind, Program.shared_eq]

/-! ## The visualizer and the suggester -/

section
variable {source : String} {prepared : Program × List Advisory} {run : Run} {clock : Nat → Nat}

theorem conclude_error_iff {failure : AdviserFailure} :
    e.conclude source prepared run clock = .error failure ↔
      e.visualize (stamp clock run.trace.toList) = .error failure ∨
        (e.visualize (stamp clock run.trace.toList) = .ok () ∧
          e.suggest source = .error failure) := by
  unfold conclude
  cases hv : e.visualize (stamp clock run.trace.toList) <;> cases hs : e.suggest source <;>
    simp [hv, bind, Except.bind, pure, Except.pure]

/-- **Conclusion.** A report has the suggester's answer and the advisories it was given. For the
rest it is the report that an engine without advisers makes of the same run. -/
theorem conclude_ok {report : Report} (h : e.conclude source prepared run clock = .ok report) :
    e.suggest source = .ok report.suggestions ∧ report.advisories = prepared.2 ∧
      ∀ (limits : Limits) (advisories : List Advisory) (clock' : Nat → Nat), ∃ plain,
        ({ limits := limits } : Engine).conclude source (prepared.1, advisories) run clock' =
          .ok plain ∧ report.EqUpToAdvice plain := by
  unfold conclude at h
  cases hv : e.visualize (stamp clock run.trace.toList) with
  | error failure => simp [hv, bind, Except.bind] at h
  | ok shown =>
    cases hs : e.suggest source with
    | error failure => simp [hv, hs, bind, Except.bind] at h
    | ok suggestions =>
      simp only [hv, hs, bind, Except.bind, pure, Except.pure, Except.ok.injEq] at h
      subst h
      refine ⟨rfl, rfl, fun limits advisories clock' => ⟨_, rfl, ?_⟩⟩
      exact ⟨rfl, by simp only [untimed_stamp]⟩

end

end Engine

/-! ## The whole request -/

/-- **Only advice.** A request fails if the predictor fails on a line, with its failure on the first
such line; or else if the visualizer fails on the trace; or else if the suggester fails on the
source. If none of them does, the report has the lines that the predictor finds suspicious, and is
otherwise the one of the engine with the same limits and without advisers. -/
theorem advisers_only_advise (e : Engine) (clock : Nat → Nat) (source : String) :
    let lines := codeLines source
    let program := compile source
    let trace := stamp clock ((program.machine e.limits).run program.code).trace.toList
    (∀ failure, e.execute clock source = .error failure ↔
      e.FailsFirst lines failure ∨
      (e.Passes lines ∧ e.visualize trace = .error failure) ∨
      (e.Passes lines ∧ e.visualize trace = .ok () ∧ e.suggest source = .error failure)) ∧
    (∀ report, e.execute clock source = .ok report →
      report.advisories = lines.filterMap e.advisory? ∧
      e.suggest source = .ok report.suggestions ∧
      ∀ clock', ∃ plain, ({ limits := e.limits } : Engine).execute clock' source = .ok plain ∧
        report.EqUpToAdvice plain) := by
  intro lines program trace
  rcases e.passes_or_failsFirst lines with hpass | ⟨failure, hfail⟩
  · have hno : ∀ failure, ¬ e.FailsFirst lines failure := hpass.not_failsFirst
    rw [Engine.execute_of_passes hpass]
    refine ⟨fun failure => by simp [Engine.conclude_error_iff, hpass, hno, trace, program], ?_⟩
    intro report hreport
    obtain ⟨hsuggest, hadvisories, hplain⟩ := Engine.conclude_ok hreport
    refine ⟨hadvisories, hsuggest, fun clock' => ?_⟩
    have hclean : ({ limits := e.limits } : Engine).Passes lines := fun l _ => ⟨_, rfl⟩
    rw [Engine.execute_of_passes hclean]
    exact hplain e.limits _ clock'
  · have hno : ¬ e.Passes lines := fun hpass => hpass.not_failsFirst failure hfail
    rw [Engine.execute_of_failsFirst hfail]
    refine ⟨fun failure' => ⟨fun h => ?_, fun h => ?_⟩, fun report h => nomatch h⟩
    · cases h
      exact .inl hfail
    · rcases h with hfail' | ⟨hpass, -⟩ | ⟨hpass, -⟩
      · rw [hfail.unique hfail']
      · exact absurd hpass hno
      · exact absurd hpass hno

/-- An engine that is wary of one statement. -/
def waryEngine : Engine where
  predict line := .ok (if line = "pop r2" then ⟨true, ⟨4602678819172646912⟩⟩ else .clean)
  suggest source := .ok (suggest 5 source)

/-- An engine that has no answer on that statement, and does not like any trace. -/
def mutedEngine : Engine where
  predict line := if line = "pop r2" then .error (.predictor "no answer") else .ok .clean
  visualize _ := .error (.visualizer "no trace")

def warySource : String := "mov r1, 5\n\n  pop r2\nprint r1"

/-- The predictor's remark is reported and changes nothing else; its failure comes before the
visualizer's. -/
theorem advisers_only_advise_wary :
    (∃ report, waryEngine.execute id warySource = .ok report ∧
      report.advisories = [⟨3, ⟨4602678819172646912⟩⟩] ∧
      ∃ plain, ({} : Engine).execute id warySource = .ok plain ∧ report.EqUpToAdvice plain) ∧
    mutedEngine.execute id warySource = .error (.predictor "no answer") := by
  obtain ⟨-, hreport⟩ := advisers_only_advise waryEngine id warySource
  obtain ⟨hfailure, -⟩ := advisers_only_advise mutedEngine id warySource
  constructor
  · have hok : ∃ report, waryEngine.execute id warySource = .ok report :=
      ⟨_, Engine.execute_of_passes fun l _ => ⟨_, rfl⟩⟩
    obtain ⟨report, hexec⟩ := hok
    obtain ⟨hadvisories, -, hplain⟩ := hreport report hexec
    exact ⟨report, hexec, hadvisories.trans (by decide +kernel), hplain id⟩
  · refine (hfailure _).2 (.inl ⟨[(1, "mov r1, 5".toList)], (3, "pop r2".toList),
      [(4, "print r1".toList)], by decide +kernel, ?_, ?_⟩)
    · simp [Engine.Passes, mutedEngine]
    · simp [mutedEngine]

end LineAsm
