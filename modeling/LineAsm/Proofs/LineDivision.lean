import LineAsm.Proofs.Splitting
import Mathlib.Algebra.Group.Nat.Even

/-!
# How a line is divided

The splitter carries along whether it is inside quotes. What it makes of a line can be said without
that state, by counting: the parts joined by semicolons are the line, each part but the last has an
even number of quotes, and a semicolon inside a part has an odd number of quotes before it in that
part. There is one list of parts like this.

Results:
* `endsQuoted_eq_self_iff`, `undivided_iff`: the splitter's state and a part, by counting quotes.
* `intercalate_splitOutside`, `splitStatements_intercalate`: splitting and joining undo each other.
* `lines_divide_in_one_way`: what follows for the parts and for the statements of a line.
-/
namespace LineAsm

open Text

/-! ## Counting quotes -/

/-- A text ends on the side of the quotes on which it starts if it has an even number of them. -/
theorem endsQuoted_eq_self_iff (quoted : Bool) (cs : List Char) :
    endsQuoted quoted cs = quoted ↔ Even (cs.count '"') := by
  induction cs generalizing quoted with
  | nil => simp
  | cons c cs ih =>
    rw [endsQuoted_cons]
    by_cases hc : c = '"'
    · subst hc
      have hflip : endsQuoted (!quoted) cs = quoted ↔ ¬ endsQuoted (!quoted) cs = !quoted := by
        cases quoted <;> simp
      rw [if_pos rfl, hflip, ih, List.count_cons_self, Nat.even_add_one]
    · rw [if_neg hc, ih, List.count_cons_of_ne hc]

/-- In a part every semicolon stands inside quotes. -/
theorem undivided_iff {quoted : Bool} {cs : List Char} :
    Undivided quoted cs ↔
      ∀ before after, cs = before ++ ';' :: after → endsQuoted quoted before = true := by
  constructor
  · rintro h before after rfl
    obtain ⟨hdivides, -⟩ := undivided_cons.1 (undivided_append.1 h).2
    simpa using hdivides
  · intro h
    induction cs generalizing quoted with
    | nil => exact undivided_nil quoted
    | cons c cs ih =>
      rw [undivided_cons]
      constructor
      · rintro ⟨rfl, rfl⟩
        have hopen := h [] cs rfl
        simp at hopen
      · apply ih
        rintro before after rfl
        exact h (c :: before) after rfl

theorem undivided_iff_count {cs : List Char} :
    Undivided false cs ↔
      ∀ before after, cs = before ++ ';' :: after → ¬ Even (before.count '"') := by
  rw [undivided_iff]
  refine forall₃_congr fun before after _ => ?_
  rw [← endsQuoted_eq_self_iff false before, Bool.not_eq_false]

theorem pairwise_closed_iff {parts : List (List Char)} :
    (parts.Pairwise fun part _ => endsQuoted false part = false) ↔
      ∀ part ∈ parts.dropLast, Even (part.count '"') := by
  induction parts with
  | nil => simp
  | cons part parts ih =>
    cases parts with
    | nil => simp
    | cons next parts =>
      have heven := endsQuoted_eq_self_iff false part
      have hpart : (∀ later ∈ next :: parts, endsQuoted false part = false) ↔
          Even (part.count '"') :=
        ⟨fun h => heven.1 (h next List.mem_cons_self), fun h _ _ => heven.2 h⟩
      rw [List.pairwise_cons, hpart, ih, List.dropLast_cons_cons, List.forall_mem_cons]

/-! ## Splitting and joining -/

theorem intercalate_splitOutside (quoted : Bool) (cs : List Char) :
    [';'].intercalate (splitOutside quoted cs) = cs := by
  induction cs generalizing quoted with
  | nil => rfl
  | cons c cs ih =>
    rw [splitOutside]
    split
    · rename_i hdivides
      obtain ⟨first, rest, hsplit, -⟩ := splitOutside_parts quoted cs
      have hrest := ih quoted
      rw [hsplit] at hrest ⊢
      rw [List.intercalate_cons_cons, hrest, hdivides.1]
      rfl
    · obtain ⟨first, rest, hsplit, -⟩ := splitOutside_parts (if c = '"' then !quoted else quoted) cs
      have hrest := ih (if c = '"' then !quoted else quoted)
      rw [hsplit] at hrest ⊢
      rw [List.modifyHead_cons, ← hrest]
      cases rest <;> simp

theorem splitStatements_intercalate {parts : List (List Char)} (hne : parts ≠ [])
    (hparts : ∀ part ∈ parts, Undivided false part)
    (hclosed : parts.Pairwise fun part _ => endsQuoted false part = false) :
    splitStatements ([';'].intercalate parts) = parts := by
  induction parts with
  | nil => exact absurd rfl hne
  | cons part parts ih =>
    obtain ⟨hpart, hparts⟩ := List.forall_mem_cons.1 hparts
    obtain ⟨hbefore, hclosed⟩ := List.pairwise_cons.1 hclosed
    cases parts with
    | nil =>
      rw [List.intercalate_singleton]
      exact hpart
    | cons next parts =>
      have hrest := ih (by simp) hparts hclosed
      rw [List.intercalate_cons_cons, List.append_assoc, List.singleton_append]
      unfold splitStatements at hrest ⊢
      rw [splitOutside_part hpart (hbefore next List.mem_cons_self), hrest]

/-! ## The parts of a line -/

/-- The parts are what the semicolons outside quotes leave of the line. -/
structure IsDivision (line : List Char) (parts : List (List Char)) : Prop where
  ne_nil : parts ≠ []
  joined : [';'].intercalate parts = line
  closed : ∀ part ∈ parts.dropLast, Even (part.count '"')
  undivided : ∀ part ∈ parts, ∀ before after, part = before ++ ';' :: after →
    ¬ Even (before.count '"')

theorem isDivision_splitStatements (line : List Char) : IsDivision line (splitStatements line) where
  ne_nil := by
    obtain ⟨first, rest, hsplit, -⟩ := splitOutside_parts false line
    unfold splitStatements
    rw [hsplit]
    exact List.cons_ne_nil first rest
  joined := intercalate_splitOutside false line
  closed := pairwise_closed_iff.1 (splitStatements_closed line)
  undivided _ hpart := undivided_iff_count.1 (splitStatements_undivided hpart)

theorem IsDivision.eq_splitStatements {line : List Char} {parts : List (List Char)}
    (h : IsDivision line parts) : parts = splitStatements line := by
  have hparts : ∀ part ∈ parts, Undivided false part :=
    fun part hpart => undivided_iff_count.2 (h.undivided part hpart)
  rw [← h.joined, splitStatements_intercalate h.ne_nil hparts (pairwise_closed_iff.2 h.closed)]

/-- **One division.** A line is divided as the count of quotes says and in no other way, and each of
its statements is the one statement of the line that it makes by itself. -/
theorem lines_divide_in_one_way (line : List Char) :
    (∀ parts, IsDivision line parts ↔ parts = splitStatements line) ∧
    ∀ text ∈ lineStatements line, lineStatements text.toList = [text] := by
  refine ⟨fun parts => ⟨IsDivision.eq_splitStatements, ?_⟩, fun text htext => ?_⟩
  · rintro rfl
    exact isDivision_splitStatements line
  · rw [(isStatement_of_mem htext).lineStatements, String.ofList_toList]

/-- Semicolons inside quotes, at both ends, next to each other and behind a quote left open. -/
theorem lines_divide_in_one_way_unbalanced :
    let line := ";print \"a;b\"; ;print \"c;d;".toList
    IsDivision line ["".toList, "print \"a;b\"".toList, " ".toList, "print \"c;d;".toList] ∧
    lineStatements line = ["print \"a;b\"", "print \"c;d;"] ∧
    lineStatements "print \"a;b\"".toList = ["print \"a;b\""] ∧
    lineStatements "print \"c;d;".toList = ["print \"c;d;"] := by
  intro line
  have hstatements : lineStatements line = ["print \"a;b\"", "print \"c;d;"] := by decide
  obtain ⟨hdivision, halone⟩ := lines_divide_in_one_way line
  exact ⟨(hdivision _).2 (by decide), hstatements, halone _ (by simp [hstatements]),
    halone _ (by simp [hstatements])⟩

end LineAsm
