import LineAsm.Statement.Shape
import Mathlib.Data.List.DropRight

/-!
# Runs of characters

A recogniser takes the longest run of a class off the front of a text. If a text is put together
from a run and something that does not go on with it, the recogniser finds the run again.

Results:
* `takeWhile_run`, `dropWhile_run`: a run and what follows it.
* `trim_eq_self_iff`: the texts without outer blanks.
* `words_append_cut`, `words_intercalate`: the words on both sides of a separator, and the words of a
  list that is written with commas.
* `forall_mem_intercalate`, `forall_head?_intercalate`, `forall_getLast?_intercalate`: what holds of
  all characters, of the first and of the last one of a joined text.
-/
namespace LineAsm

open Text

/-! ## One run -/

section
variable {p : Char → Bool} {run rest : List Char}

/-- A character outside the class ends a run. -/
theorem stops_cons {c : Char} (hc : p c = false) (rest : List Char) :
    ∀ d ∈ (c :: rest).head?, p d = false := by
  intro d hd
  cases hd
  exact hc

theorem takeWhile_run (hrun : ∀ c ∈ run, p c = true) (hrest : ∀ c ∈ rest.head?, p c = false) :
    (run ++ rest).takeWhile p = run := by
  rw [List.takeWhile_append_of_pos hrun]
  cases rest with
  | nil => simp
  | cons c rest => simp [hrest c rfl]

theorem dropWhile_run (hrun : ∀ c ∈ run, p c = true) (hrest : ∀ c ∈ rest.head?, p c = false) :
    (run ++ rest).dropWhile p = rest := by
  rw [List.dropWhile_append_of_pos hrun]
  cases rest with
  | nil => simp
  | cons c rest => simp [hrest c rfl]

end

/-! ## Trimmed texts -/

/-- What is left when the blanks on the left are gone loses those on the right. -/
theorem trim_eq_rdropWhile (cs : List Char) : trim cs = (dropBlanks cs).rdropWhile isBlank := rfl

/-- A text without outer blanks starts and ends with a character that is not blank. -/
theorem trim_eq_self_iff {cs : List Char} :
    trim cs = cs ↔ (∀ c ∈ cs.head?, isBlank c = false) ∧ ∀ c ∈ cs.getLast?, isBlank c = false := by
  have hfirst : dropBlanks cs = cs ↔ ∀ c ∈ cs.head?, isBlank c = false := by
    unfold dropBlanks
    rw [List.dropWhile_eq_self_iff]
    cases cs <;> simp
  have hlast : cs.rdropWhile isBlank = cs ↔ ∀ c ∈ cs.getLast?, isBlank c = false := by
    rw [List.rdropWhile_eq_self_iff]
    constructor
    · intro h c hc
      obtain ⟨hne, rfl⟩ := List.mem_getLast?_eq_getLast hc
      simpa using h hne
    · intro h hne
      simpa using h _ (List.getLast?_eq_some_getLast hne)
  rw [trim_eq_rdropWhile, ← hfirst, ← hlast]
  constructor
  · intro h
    -- neither end can have lost anything
    have hleft : dropBlanks cs = cs := by
      apply (List.dropWhile_suffix isBlank).eq_of_length_le
      have hlen := (List.rdropWhile_prefix isBlank (dropBlanks cs)).length_le
      rwa [h] at hlen
    rw [hleft] at h
    exact ⟨hleft, h⟩
  · rintro ⟨hleft, hright⟩
    rw [hleft, hright]

section
variable {rest : List Char} (hrest : ∀ c ∈ rest.head?, isBlank c = false)
include hrest

theorem takeWhile_blank_cons : (' ' :: rest).takeWhile isBlank = [' '] := by
  have hblank : ∀ c ∈ [' '], isBlank c = true := List.forall_mem_singleton.2 (by decide)
  exact takeWhile_run hblank hrest

theorem dropBlanks_blank_cons : dropBlanks (' ' :: rest) = rest := by
  have hblank : ∀ c ∈ [' '], isBlank c = true := List.forall_mem_singleton.2 (by decide)
  exact dropWhile_run hblank hrest

end

/-! ## Words -/

section
variable {cut : Char → Bool}

theorem words_append_cut {c : Char} (hc : cut c = true) (before after : List Char) :
    words cut (before ++ c :: after) = words cut before ++ words cut after := by
  unfold words
  rw [List.splitOnP_append_cons before after hc, List.filter_append]

theorem words_run {run : List Char} (hne : run ≠ []) (hrun : ∀ c ∈ run, cut c = false) :
    words cut run = [run] := by
  unfold words
  rw [List.splitOnP_eq_singleton hrun]
  simp [hne]

end

/-- Tokens without separators are found again when they are written with commas. -/
theorem words_intercalate {tokens : List (List Char)} (hne : ∀ t ∈ tokens, t ≠ [])
    (htokens : ∀ t ∈ tokens, ∀ c ∈ t, isSeparator c = false) :
    words isSeparator (", ".toList.intercalate tokens) = tokens := by
  induction tokens with
  | nil => rfl
  | cons t tokens ih =>
    have ht := htokens t List.mem_cons_self
    have htail := ih (fun u hu => hne u (List.mem_cons_of_mem _ hu))
      (fun u hu => htokens u (List.mem_cons_of_mem _ hu))
    cases tokens with
    | nil =>
      rw [List.intercalate_singleton]
      exact words_run (hne t List.mem_cons_self) ht
    | cons u tokens =>
      rw [List.intercalate_cons_cons, List.append_assoc]
      show words isSeparator (t ++ ',' :: ([] ++ ' ' :: ", ".toList.intercalate (u :: tokens))) = _
      rw [words_append_cut (by decide), words_append_cut (by decide), htail,
        words_run (hne t List.mem_cons_self) ht]
      rfl

/-! ## Joined texts -/

section
variable {p : Char → Prop} {sep : List Char} {pieces : List (List Char)}

theorem intercalate_cons (sep piece : List Char) (pieces : List (List Char)) :
    sep.intercalate (piece :: pieces) = piece ++ pieces.flatMap (sep ++ ·) := by
  induction pieces generalizing piece with
  | nil => simp
  | cons next pieces ih => simp [List.intercalate_cons_cons, ih]

theorem forall_mem_intercalate (hsep : ∀ c ∈ sep, p c) (h : ∀ t ∈ pieces, ∀ c ∈ t, p c) :
    ∀ c ∈ sep.intercalate pieces, p c := by
  cases pieces with
  | nil => simp
  | cons t pieces =>
    intro c hc
    rw [intercalate_cons, List.mem_append, List.mem_flatMap] at hc
    rcases hc with hc | ⟨u, hu, hc⟩
    · exact h t List.mem_cons_self c hc
    · rcases List.mem_append.1 hc with hc | hc
      · exact hsep c hc
      · exact h u (List.mem_cons_of_mem _ hu) c hc

theorem forall_head?_intercalate (hne : ∀ t ∈ pieces, t ≠ [])
    (h : ∀ t ∈ pieces, ∀ c ∈ t.head?, p c) : ∀ c ∈ (sep.intercalate pieces).head?, p c := by
  cases pieces with
  | nil => simp
  | cons t pieces =>
    obtain ⟨c, cs, rfl⟩ := List.exists_cons_of_ne_nil (hne t List.mem_cons_self)
    rw [intercalate_cons]
    exact h (c :: cs) List.mem_cons_self

theorem forall_getLast?_intercalate (hne : ∀ t ∈ pieces, t ≠ [])
    (h : ∀ t ∈ pieces, ∀ c ∈ t.getLast?, p c) : ∀ c ∈ (sep.intercalate pieces).getLast?, p c := by
  cases pieces with
  | nil => simp
  | cons t pieces =>
    rw [intercalate_cons]
    rcases List.eq_nil_or_concat pieces with rfl | ⟨front, u, rfl⟩
    · simpa using h t
    · have hu : u ∈ t :: front.concat u := by simp
      have hlast : (t ++ (front.concat u).flatMap (sep ++ ·)).getLast? = u.getLast? := by
        simp [List.getLast?_append, List.getLast?_eq_some_getLast (hne u hu)]
      rw [hlast]
      exact h u hu

end

end LineAsm
