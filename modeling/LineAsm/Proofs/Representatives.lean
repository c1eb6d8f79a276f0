import LineAsm.Program.Sharing
import Mathlib.Data.List.Dedup

/-!
# One representative for each statement

A pool lives through many requests: code and programs, compiled just now or shared before, in any
order. A statement keeps the representative it was given first, through the whole history of the
pool. So of two shared instructions one can tell from their copies alone whether their statements
are equal, and what was shared before comes back as it is.

What the requests look like does not matter to the pool: it sees their instructions one after the
other. All that is said about histories is said about one list of instructions first.

Results:
* `Spreads`: an operation on requests that is one on their instructions, one after the other.
* `Pool.intern_cases`: the three things that can happen to an instruction.
* `Pool.Represents`, `Pool.each_represents`: shared instructions hold representatives, and go on to
  do so whatever the pool meets later.
* `Pool.Accounts`, `Pool.each_accounts`: what a pool holds and counts after instructions with copies
  of their own; `nodup_hold` says that freshly held instructions are of this kind.
* `Program.shared_eq`: a program is the same when its statements are shared.
* `sharing_is_exact`: what follows for histories.
-/
namespace LineAsm

/-! ## One after the other -/

section
variable {σ α β γ δ : Type} {act : σ → α → σ × β} {inner : σ → γ → σ × δ}

theorem each_cons (act : σ → α → σ × β) (s : σ) (a : α) (rest : List α) :
    each act s (a :: rest) =
      ((each act (act s a).1 rest).1, (act s a).2 :: (each act (act s a).1 rest).2) := rfl

theorem each_append (act : σ → α → σ × β) (s : σ) (xs ys : List α) :
    each act s (xs ++ ys) =
      ((each act (each act s xs).1 ys).1,
        (each act s xs).2 ++ (each act (each act s xs).1 ys).2) := by
  induction xs generalizing s with
  | nil => rfl
  | cons a xs ih => rw [List.cons_append, each_cons, each_cons, ih]; rfl

/-- What the operation leaves as it is in one element, it leaves in all of them. -/
theorem map_each {f : α → γ} {g : β → γ} (h : ∀ s a, g (act s a).2 = f a) (s : σ) (xs : List α) :
    (each act s xs).2.map g = xs.map f := by
  induction xs generalizing s with
  | nil => rfl
  | cons a xs ih => rw [each_cons, List.map_cons, List.map_cons, h, ih]

theorem each_fixed {act : σ → α → σ × α} {s : σ} {xs : List α} (h : ∀ a ∈ xs, act s a = (s, a)) :
    each act s xs = (s, xs) := by
  induction xs with
  | nil => rfl
  | cons a xs ih =>
    obtain ⟨ha, hxs⟩ := List.forall_mem_cons.1 h
    rw [each_cons, ha, ih hxs]

/-- What `act` does to an element is what `inner` does to its parts, one after the other. -/
def Spreads (act : σ → α → σ × β) (inner : σ → γ → σ × δ) (f : α → List γ) (g : β → List δ) :
    Prop :=
  ∀ s a, each inner s (f a) = ((act s a).1, g (act s a).2)

theorem Spreads.each {f : α → List γ} {g : β → List δ} (h : Spreads act inner f g) :
    Spreads (each act) inner (·.flatMap f) (·.flatMap g) := by
  intro s xs
  induction xs generalizing s with
  | nil => rfl
  | cons a xs ih =>
    simp only [List.flatMap_cons, each_append, each_cons, h s a, ih]

end

/-! ## Requests -/

section
variable {σ α β γ : Type} {act : σ → α → σ × β}

namespace Parts

/-- All instructions, those of the main code first. -/
def instructions (p : Parts α) : List α := p.code ++ p.functions.flatMap Prod.snd

theorem map_id (p : Parts α) : p.map id = p := by
  unfold map
  simp

theorem spreads_eachInFunction (act : σ → α → σ × β) :
    Spreads (eachInFunction act) act Prod.snd Prod.snd := fun _ _ => rfl

theorem spreads_each (act : σ → α → σ × β) :
    Spreads (Parts.each act) act instructions instructions := by
  intro s p
  have hfunctions := (spreads_eachInFunction act).each (LineAsm.each act s p.code).1 p.functions
  unfold instructions
  rw [each_append, hfunctions]
  rfl

theorem map_each {f : α → γ} {g : β → γ} (h : ∀ s a, g (act s a).2 = f a) (s : σ) (p : Parts α) :
    (p.each act s).2.map g = p.map f := by
  have hcode := LineAsm.map_each h s p.code
  have hbody : ∀ s (function : String × List α),
      Prod.map id (List.map g) (eachInFunction act s function).2 =
        Prod.map id (List.map f) function :=
    fun s function => congrArg (Prod.mk function.1) (LineAsm.map_each h s function.2)
  have hfunctions := LineAsm.map_each hbody (LineAsm.each act s p.code).1 p.functions
  unfold Parts.map
  exact congr (congrArg Parts.mk hcode) hfunctions

theorem each_fixed {act : σ → α → σ × α} {s : σ} {p : Parts α}
    (h : ∀ a ∈ p.instructions, act s a = (s, a)) : p.each act s = (s, p) := by
  obtain ⟨hcode, hfunctions⟩ := List.forall_mem_append.1 h
  have hbodies : ∀ f ∈ p.functions, eachInFunction act s f = (s, f) := by
    intro f hf
    have hbody : ∀ a ∈ f.2, act s a = (s, a) :=
      fun a ha => hfunctions a (List.mem_flatMap.2 ⟨f, hf, ha⟩)
    unfold eachInFunction
    rw [LineAsm.each_fixed hbody]
  unfold Parts.each
  rw [LineAsm.each_fixed hcode]
  simp only [LineAsm.each_fixed hbodies]

end Parts

/-- What a pool can be asked to share. -/
inductive Request (α : Type) where
  | code (code : List α)
  | program (parts : Parts α)

namespace Request

def instructions : Request α → List α
  | code c => c
  | program p => p.instructions

def map (f : α → β) : Request α → Request β
  | code c => code (c.map f)
  | program p => program (p.map f)

/-- Does something to every instruction of a request. -/
def each (act : σ → α → σ × β) (s : σ) : Request α → σ × Request β
  | code c => ((LineAsm.each act s c).1, code (LineAsm.each act s c).2)
  | program p => ((p.each act s).1, program (p.each act s).2)

theorem spreads_each (act : σ → α → σ × β) :
    Spreads (Request.each act) act instructions instructions := by
  intro s r
  cases r with
  | code c => rfl
  | program p => exact Parts.spreads_each act s p

theorem map_each {f : α → γ} {g : β → γ} (h : ∀ s a, g (act s a).2 = f a) (s : σ)
    (r : Request α) : (r.each act s).2.map g = r.map f := by
  cases r with
  | code c => exact congrArg code (LineAsm.map_each h s c)
  | program p => exact congrArg program (Parts.map_each h s p)

theorem each_fixed {act : σ → α → σ × α} {s : σ} {r : Request α}
    (h : ∀ a ∈ r.instructions, act s a = (s, a)) : r.each act s = (s, r) := by
  cases r with
  | code c =>
    have hcode : ∀ a ∈ c, act s a = (s, a) := h
    simp only [Request.each, LineAsm.each_fixed hcode]
  | program p =>
    have hparts : ∀ a ∈ p.instructions, act s a = (s, a) := h
    simp only [Request.each, Parts.each_fixed hparts]

end Request

end

namespace Pool

/-- Shares the statements of what a request holds. -/
def answer (p : Pool) : Request HeldInstruction → Pool × Request HeldInstruction
  | .code c => ((p.shareCode c).1, .code (p.shareCode c).2)
  | .program q => ((p.shareProgram q).1, .program (p.shareProgram q).2)

theorem answer_eq (p : Pool) (r : Request HeldInstruction) : p.answer r = r.each intern p := by
  cases r <;> rfl

/-! ## One instruction -/

variable {p : Pool} {i : HeldInstruction}

theorem representative?_eq_some {s : Statement} {c : Copy} (h : p.representative? s = some c) :
    c ∈ p.representatives ∧ c.statement = s :=
  ⟨Array.mem_of_find?_eq_some h, by simpa using Array.find?_some h⟩

theorem isSome_representative? {s : Statement} :
    (p.representative? s).isSome = true ↔ s ∈ p.representatives.toList.map (·.statement) := by
  simp [representative?, Array.find?_isSome]

theorem representative?_push (p : Pool) (c : Copy) (n : Nat) (s : Statement) :
    representative? ⟨p.representatives.push c, n⟩ s =
      (p.representative? s).or (if c.statement = s then some c else none) := by
  unfold representative?
  simp [Array.find?_push]

/-- An instruction holds the representative already, or it gives up another copy, or its copy
becomes the representative. -/
theorem intern_cases (p : Pool) (i : HeldInstruction) :
    (p.representative? i.copy.statement = some i.copy ∧ p.intern i = (p, i)) ∨
    (∃ c, p.representative? i.copy.statement = some c ∧ c ≠ i.copy ∧
      p.intern i = (⟨p.representatives, p.replaced + 1⟩, ⟨i.line, c⟩)) ∨
    (p.representative? i.copy.statement = none ∧
      p.intern i = (⟨p.representatives.push i.copy, p.replaced⟩, i)) := by
  unfold intern
  cases hc : p.representative? i.copy.statement with
  | none => exact .inr (.inr ⟨rfl, rfl⟩)
  | some c =>
    by_cases heq : c = i.copy
    · subst heq
      exact .inl ⟨rfl, by simp⟩
    · exact .inr (.inl ⟨c, rfl, heq, by simp [heq]⟩)

/-- A pool knows the statements it knew before, and that of the instruction. -/
theorem isSome_representative?_intern (p : Pool) (i : HeldInstruction) (s : Statement) :
    ((p.intern i).1.representative? s).isSome = true ↔
      (p.representative? s).isSome = true ∨ s = i.copy.statement := by
  have hknown : ∀ c, p.representative? i.copy.statement = some c →
      ((p.representative? s).isSome = true ↔
        (p.representative? s).isSome = true ∨ s = i.copy.statement) := by
    intro c hc
    constructor
    · exact .inl
    · rintro (hs | rfl)
      · exact hs
      · rw [hc]; rfl
  rcases p.intern_cases i with ⟨hc, h⟩ | ⟨c, hc, -, h⟩ | ⟨-, h⟩
  · rw [h]
    exact hknown _ hc
  · rw [h]
    exact hknown c hc
  · rw [h, representative?_push, Option.isSome_or, Bool.or_eq_true]
    by_cases heq : i.copy.statement = s
    · simp [heq]
    · simp [heq, Ne.symm heq]

/-- The copy may change, the instruction does not. -/
theorem intern_plain (p : Pool) (i : HeldInstruction) : (p.intern i).2.plain = i.plain := by
  rcases p.intern_cases i with ⟨-, h⟩ | ⟨c, hc, -, h⟩ | ⟨-, h⟩
  · rw [h]
  · rw [h]
    simp only [HeldInstruction.plain, (representative?_eq_some hc).2]
  · rw [h]

/-- Representatives are kept. -/
def Keeps (p p' : Pool) : Prop :=
  ∀ s c, p.representative? s = some c → p'.representative? s = some c

theorem intern_keeps (p : Pool) (i : HeldInstruction) : p.Keeps (p.intern i).1 := by
  intro s c hc
  rcases p.intern_cases i with ⟨-, h⟩ | ⟨_, -, -, h⟩ | ⟨-, h⟩
  · rw [h]
    exact hc
  · rw [h]
    exact hc
  · rw [h, representative?_push, hc, Option.some_or]

/-- The instruction holds the representative of its statement. -/
def Represents (p : Pool) (i : HeldInstruction) : Prop :=
  p.representative? i.copy.statement = some i.copy

theorem intern_represents (p : Pool) (i : HeldInstruction) :
    (p.intern i).1.Represents (p.intern i).2 := by
  unfold Represents
  rcases p.intern_cases i with ⟨hc, h⟩ | ⟨c, hc, -, h⟩ | ⟨hc, h⟩
  · rw [h]
    exact hc
  · rw [h]
    simp only [(representative?_eq_some hc).2]
    exact hc
  · rw [h, representative?_push, hc]
    simp

/-- Nothing happens to what holds its representative. -/
theorem Represents.intern (h : p.Represents i) : p.intern i = (p, i) := by
  rcases p.intern_cases i with ⟨-, hi⟩ | ⟨c, hc, hne, -⟩ | ⟨hc, -⟩
  · exact hi
  · exact absurd (Option.some.inj (hc.symm.trans h)) hne
  · cases hc.symm.trans h

/-- Instructions that hold representatives share one exactly if their statements are equal. -/
theorem Represents.copy_eq_iff {j : HeldInstruction} (hi : p.Represents i) (hj : p.Represents j) :
    i.copy = j.copy ↔ i.copy.statement = j.copy.statement := by
  constructor
  · exact congrArg Copy.statement
  · intro h
    unfold Represents at hi hj
    rw [h] at hi
    exact Option.some.inj (hi.symm.trans hj)

/-! ## Many instructions -/

/-- **Representatives last.** After any instructions, the representatives from before are in place,
and each of the instructions holds one. -/
theorem each_represents (p : Pool) (is : List HeldInstruction) :
    p.Keeps (each intern p is).1 ∧
      ∀ o ∈ (each intern p is).2, (each intern p is).1.Represents o := by
  induction is generalizing p with
  | nil => exact ⟨fun _ _ h => h, by simp [each]⟩
  | cons i is ih =>
    obtain ⟨hkeeps, hrest⟩ := ih (p.intern i).1
    rw [each_cons]
    constructor
    · intro s c hc
      exact hkeeps s c (p.intern_keeps i s c hc)
    · refine List.forall_mem_cons.2 ⟨?_, hrest⟩
      exact hkeeps _ _ (p.intern_represents i)

/-- What a pool holds and has counted after instructions none of which held a copy met before: one
representative for each of their statements, and no instruction is left out of the count. -/
structure Accounts (seen : List HeldInstruction) (p : Pool) : Prop where
  nodup : (p.representatives.toList.map (·.statement)).Nodup
  statements : ∀ s, (p.representative? s).isSome = true ↔ s ∈ seen.map (·.copy.statement)
  copies : ∀ c ∈ p.representatives, c ∈ seen.map (·.copy)
  count : p.replaced + p.representatives.size = seen.length

theorem Accounts.empty : Accounts [] {} := ⟨by simp, by simp [representative?], by simp, rfl⟩

theorem Accounts.intern {seen : List HeldInstruction} (h : Accounts seen p)
    (hnew : i.copy ∉ seen.map (·.copy)) : Accounts (seen ++ [i]) (p.intern i).1 := by
  have hstatements : ∀ s, ((p.intern i).1.representative? s).isSome = true ↔
      s ∈ (seen ++ [i]).map (·.copy.statement) := by
    intro s
    rw [isSome_representative?_intern, h.statements, List.map_append, List.mem_append,
      List.map_singleton, List.mem_singleton]
  have hcopies : ∀ c ∈ p.representatives, c ∈ (seen ++ [i]).map (·.copy) := by
    intro c hc
    rw [List.map_append]
    exact List.mem_append_left _ (h.copies c hc)
  have hcount := h.count
  rcases p.intern_cases i with ⟨hc, -⟩ | ⟨c, -, -, hi⟩ | ⟨hc, hi⟩
  · -- a representative is a copy that was met before
    exact absurd (h.copies _ (representative?_eq_some hc).1) hnew
  · rw [hi] at hstatements ⊢
    refine ⟨h.nodup, hstatements, hcopies, ?_⟩
    simp only [List.length_append, List.length_singleton]
    omega
  · have hnone : i.copy.statement ∉ p.representatives.toList.map (·.statement) := by
      rw [← isSome_representative?, hc]
      simp
    rw [hi] at hstatements ⊢
    refine ⟨?_, hstatements, ?_, ?_⟩
    · rw [Array.toList_push, List.map_append, List.map_singleton, ← List.concat_eq_append]
      exact (List.nodup_concat _ _).2 ⟨hnone, h.nodup⟩
    · intro c hc'
      rcases Array.mem_push.1 hc' with hc' | rfl
      · exact hcopies c hc'
      · simp
    · simp only [Array.size_push, List.length_append, List.length_singleton]
      omega

theorem each_accounts {seen is : List HeldInstruction} (h : Accounts seen p)
    (hnew : ((seen ++ is).map (·.copy)).Nodup) :
    Accounts (seen ++ is) (each Pool.intern p is).1 := by
  induction is generalizing p seen with
  | nil => simpa [each] using h
  | cons i is ih =>
    have hi : i.copy ∉ seen.map (·.copy) := by
      rw [List.map_append, List.nodup_append] at hnew
      intro hmem
      exact hnew.2.2 _ hmem i.copy (by simp) rfl
    rw [List.append_cons] at hnew ⊢
    exact ih (h.intern hi) hnew

/-- There are as many representatives as statements. -/
theorem Accounts.size_eq {seen : List HeldInstruction} (h : Accounts seen p) :
    p.representatives.size = (seen.map (·.copy.statement)).dedup.length := by
  have hperm : (p.representatives.toList.map (·.statement)).Perm
      (seen.map (·.copy.statement)).dedup := by
    refine (List.perm_ext_iff_of_nodup h.nodup (List.nodup_dedup _)).2 ?_
    intro s
    rw [List.mem_dedup, ← isSome_representative?]
    exact h.statements s
  simpa using hperm.length_eq

end Pool

/-! ## Histories -/

theorem numbers_hold (n : Nat) (is : List Instruction) :
    (each Instruction.hold n is).2.map (·.copy.number) = List.range' n is.length := by
  induction is generalizing n with
  | nil => rfl
  | cons i is ih => exact congrArg (n :: ·) (ih (n + 1))

theorem Instruction.hold_plain (n : Nat) (i : Instruction) : (i.hold n).2.plain = i := rfl

/-- **Sharing a program.** Of the code and the functions nothing but the copies is other than it
was, so the machine runs the program that was compiled. -/
theorem Program.shared_eq (p : Program) : p.shared = p := by
  let held := (p.parts.each Instruction.hold 0).2
  have hparts : (Pool.shareProgram {} held).2.map HeldInstruction.plain = p.parts := calc
    _ = held.map HeldInstruction.plain := Parts.map_each Pool.intern_plain {} held
    _ = p.parts.map id := Parts.map_each Instruction.hold_plain 0 p.parts
    _ = p.parts := p.parts.map_id
  calc p.shared = p.withParts p.parts := congrArg p.withParts hparts
    _ = p := p.withParts_parts

/-- Instructions that are put into copies of their own share none. -/
theorem nodup_hold (n : Nat) (requests : List (Request Instruction)) :
    (((each (Request.each Instruction.hold) n requests).2.flatMap Request.instructions).map
      (·.copy)).Nodup := by
  have hflat := (Request.spreads_each Instruction.hold).each n requests
  have hnumbers := numbers_hold n (requests.flatMap Request.instructions)
  rw [hflat] at hnumbers
  apply List.Nodup.of_map Copy.number
  rw [List.map_map]
  exact hnumbers ▸ List.nodup_range'

/-- **Exact sharing.** Let a new pool answer requests of any kind, one after the other. Every answer
is its request, in other copies at most. Two instructions in any of the answers share one copy
exactly if their statements are equal. Instructions of the answers that are handed in again, in any
arrangement, come back as they are, and the pool stays as it is. And if all instructions held copies
of their own, then every one of them was replaced or brought a new statement. -/
theorem sharing_is_exact (requests : List (Request HeldInstruction)) :
    let pool := (each Pool.answer {} requests).1
    let answers := (each Pool.answer {} requests).2
    let shared := answers.flatMap Request.instructions
    let handed := requests.flatMap Request.instructions
    answers.map (·.map HeldInstruction.plain) = requests.map (·.map HeldInstruction.plain) ∧
    (∀ i ∈ shared, ∀ j ∈ shared, i.copy = j.copy ↔ i.copy.statement = j.copy.statement) ∧
    (∀ again : Request HeldInstruction, (∀ i ∈ again.instructions, i ∈ shared) →
      pool.answer again = (pool, again)) ∧
    ((handed.map (·.copy)).Nodup →
      pool.replaced + (handed.map (·.copy.statement)).dedup.length = handed.length) := by
  intro pool answers shared handed
  have hanswer : Pool.answer = Request.each Pool.intern := by
    funext p r
    exact p.answer_eq r
  have hflat : each Pool.intern {} handed = (pool, shared) := by
    have hspreads := (Request.spreads_each Pool.intern).each {} requests
    rwa [← hanswer] at hspreads
  have hshared : ∀ i ∈ shared, pool.Represents i := by
    have hall := (Pool.each_represents {} handed).2
    rwa [hflat] at hall
  refine ⟨?_, ?_, ?_, ?_⟩
  · refine map_each (fun p r => ?_) _ requests
    rw [hanswer]
    exact Request.map_each Pool.intern_plain p r
  · intro i hi j hj
    exact (hshared i hi).copy_eq_iff (hshared j hj)
  · intro again hagain
    rw [hanswer]
    exact Request.each_fixed fun i hi => (hshared i (hagain i hi)).intern
  · intro hnodup
    have haccounts : Pool.Accounts handed (each Pool.intern {} handed).1 :=
      Pool.each_accounts .empty hnodup
    rw [hflat] at haccounts
    rw [← haccounts.size_eq]
    exact haccounts.count

def echo : Statement := .simple "print r" (.print [.value (.place (.register "r"))])

def callEcho : Statement := .simple "call f" (.call "f")

/-- A program with a function, and then some code, with two statements between them. -/
def echoRequests : List (Request HeldInstruction) :=
  (each (Request.each Instruction.hold) 0
    [.program ⟨[⟨4, echo⟩, ⟨5, callEcho⟩], [("f", [⟨2, echo⟩])]⟩,
     .code [⟨1, callEcho⟩, ⟨1, echo⟩]]).2

/-- Of the five instructions two brought a new statement and three were replaced. They hold two
copies, across the main code, the function and the later code, and come back if shared again. -/
theorem sharing_is_exact_echo :
    let pool := (each Pool.answer {} echoRequests).1
    let shared := (each Pool.answer {} echoRequests).2.flatMap Request.instructions
    ((echoRequests.flatMap Request.instructions).map (·.copy)).Nodup ∧
    shared.map (·.copy.number) = [0, 1, 0, 1, 0] ∧
    pool.replaced + 2 = 5 ∧
    pool.answer (.code shared) = (pool, .code shared) := by
  obtain ⟨-, -, hagain, hcount⟩ := sharing_is_exact echoRequests
  have hnodup : ((echoRequests.flatMap Request.instructions).map (·.copy)).Nodup := nodup_hold 0 _
  exact ⟨hnodup, by decide, hcount hnodup, hagain (.code _) fun i hi => hi⟩

end LineAsm
