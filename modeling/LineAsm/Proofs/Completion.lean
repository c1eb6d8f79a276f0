import LineAsm.Proofs.Grammar
import Mathlib.Data.List.Nodup

/-!
# Following the suggestions

A suggested line is itself a statement: `declare function` with a name that is called, or `print`
with a register that is written. Written below the source it is read as just that. It mentions one
name, where the suggester looks whether a loose end is tied up, and opens no other loose end. So
each line that is followed takes exactly its own suggestion away, and the others stay in order.

Results:
* `Mentions.ofSource_append`: the mentions of a source and of what is written below it.
* `Mentions.ofSource_suggested`: what suggested lines mention.
* `filter_tied`: tying up the first loose ends leaves the others.
* `suggestions_tie_up`: what follows for the suggestions.
-/
namespace LineAsm

open Text

/-! ## Suggested lines -/

def declareLine (function : String) : String := "declare function " ++ function

def printLine (register : String) : String := "print " ++ register

theorem toList_declareLine (f : String) :
    (declareLine f).toList = "declare function ".toList ++ f.toList := String.toList_append

theorem toList_printLine (r : String) :
    (printLine r).toList = "print ".toList ++ r.toList := String.toList_append

theorem isStatement_declareLine {f : String} (hf : isFunctionName f.toList = true) :
    IsStatement (declareLine f).toList ∧ '\n' ∉ (declareLine f).toList := by
  have hletter : StartsWithLetter "declare function ".toList := ⟨'d', _, rfl, by decide⟩
  rw [toList_declareLine]
  exact isStatement_token hletter (by decide) (by decide) (isToken_of_isFunctionName hf)

theorem isStatement_printLine {r : String} (hr : isName r.toList = true) :
    IsStatement (printLine r).toList ∧ '\n' ∉ (printLine r).toList := by
  have hletter : StartsWithLetter "print ".toList := ⟨'p', _, rfl, by decide⟩
  rw [toList_printLine]
  exact isStatement_token hletter (by decide) (by decide) (isToken_of_isKey (isKey_of_isName hr))

/-- The line declares the function that it names. -/
theorem functionDeclaration?_declareLine {f : String} (hf : isFunctionName f.toList = true) :
    functionDeclaration? (declareLine f) = some f := by
  have htoken := isToken_of_isFunctionName hf
  have hhead := htoken.head_not_blank []
  have hlast := htoken.last_not_blank []
  rw [List.append_nil] at hhead
  rw [List.nil_append] at hlast
  have hfront : "declare function ".toList = declareWord ++ ' ' :: (functionWord ++ [' ']) := by
    decide
  have hlist : (declareLine f).toList =
      declareWord ++ ' ' :: (functionWord ++ ' ' :: f.toList) := by
    rw [toList_declareLine, hfront]
    simp
  have hword : dropBlanks (' ' :: (functionWord ++ ' ' :: f.toList)) =
      functionWord ++ ' ' :: f.toList := dropBlanks_blank_cons (stops_cons (by decide) _)
  have htrim : trim (' ' :: f.toList) = f.toList := by
    rw [trim_cons (by decide)]
    exact trim_eq_self_iff.2 ⟨hhead, hlast⟩
  unfold functionDeclaration?
  rw [hlist, List.isPrefixOf?_eq_some_iff_append_eq.2 rfl]
  simp only [Option.bind_some, hword, List.isPrefixOf?_eq_some_iff_append_eq.2 rfl,
    takeWhile_blank_cons hhead, htrim, String.ofList_toList]
  rfl

namespace Mentions

theorem ofText_declareLine {f : String} (hf : isFunctionName f.toList = true) :
    ofText (declareLine f) = { declared := [f] } := by
  unfold ofText
  rw [functionDeclaration?_declareLine hf]

/-- The line prints the register that it names. -/
theorem ofText_printLine {r : String} (hr : isName r.toList = true) :
    ofText (printLine r) = { printed := [r] } := by
  have hitems : ∀ item ∈ [PrintItem.value (.place (.register r))], item.isGrammatical = true := by
    simpa [PrintItem.isGrammatical, Operand.isGrammatical, Place.isGrammatical] using hr
  have htext : printLine r = "print " ++ ", ".intercalate
      ([PrintItem.value (.place (.register r))].map PrintItem.render) := by
    simp [printLine, PrintItem.render, Operand.render, Place.render]
  have hprint := decode_print_spelled hitems htext
  unfold ofText
  rw [functionDeclaration?_of_decode hprint, hprint]
  rfl

/-! ## Mentions below a source -/

theorem ofSource_append (a b : String) :
    ofSource (a ++ "\n" ++ b) = (ofSource a).append (ofSource b) := by
  simp only [ofSource_eq, statements_append, List.flatMap_append, List.flatMap_map, append]

/-- Suggested lines mention the names that they were made from, and nothing else. -/
theorem ofSource_suggested {functions registers : List String}
    (hf : ∀ f ∈ functions, isFunctionName f.toList = true)
    (hr : ∀ r ∈ registers, isName r.toList = true) :
    ofSource ("\n".intercalate (functions.map declareLine ++ registers.map printLine)) =
      { printed := registers, declared := functions } := by
  have hlines : ∀ line ∈ functions.map declareLine ++ registers.map printLine,
      IsStatement line.toList ∧ '\n' ∉ line.toList := by
    intro line hline
    rcases List.mem_append.1 hline with hline | hline
    · obtain ⟨f, hmem, rfl⟩ := List.mem_map.1 hline
      exact isStatement_declareLine (hf f hmem)
    · obtain ⟨r, hmem, rfl⟩ := List.mem_map.1 hline
      exact isStatement_printLine (hr r hmem)
  have hfields : ∀ field : Mentions → List String,
      (statements ("\n".intercalate (functions.map declareLine ++ registers.map printLine))).flatMap
        (fun s => field (ofText s.2)) =
      functions.flatMap (fun f => field { declared := [f] }) ++
        registers.flatMap fun r => field { printed := [r] } := by
    intro field
    rw [statements_intercalate hlines, List.flatMap_map,
      ← List.flatMap_map Prod.fst fun text => field (ofText text), List.zipIdx_map_fst,
      List.flatMap_append, List.flatMap_map, List.flatMap_map]
    congr 1
    · exact List.flatMap_congr fun f hmem => by rw [ofText_declareLine (hf f hmem)]
    · exact List.flatMap_congr fun r hmem => by rw [ofText_printLine (hr r hmem)]
  rw [ofSource_eq, hfields written, hfields printed, hfields called, hfields declared]
  simp

end Mentions

/-! ## Loose ends that are tied up -/

theorem nodup_eraseDups (l : List String) : l.eraseDups.Nodup := by
  -- the tail loses all copies of the head, so the induction is on the length
  induction hn : l.length using Nat.strongRecOn generalizing l with
  | ind n ih =>
    cases l with
    | nil => simp
    | cons a l =>
      rw [List.length_cons] at hn
      have hlen := List.length_filter_le (fun b => !b == a) l
      rw [List.eraseDups_cons, List.nodup_cons]
      exact ⟨by simp, ih _ (by omega) _ rfl⟩

theorem filter_take {l : List String} (h : l.Nodup) (k : Nat) :
    l.filter (!(l.take k).contains ·) = l.drop k := by
  induction l generalizing k with
  | nil => simp
  | cons a l ih =>
    obtain ⟨ha, hl⟩ := List.nodup_cons.1 h
    cases k with
    | zero => simp
    | succ k =>
      have hrest : l.filter (!((a :: l).take (k + 1)).contains ·) =
          l.filter (!(l.take k).contains ·) := by
        refine List.filter_congr fun b hb => ?_
        have hne : b ≠ a := by
          rintro rfl
          exact ha hb
        simp [hne]
      rw [List.filter_cons_of_neg (by simp), hrest, ih hl k, List.drop_succ_cons]

/-- Tying up the first loose ends leaves the others. -/
theorem filter_tied {names tied : List String} (hnames : names.Nodup) (k : Nat) :
    let loose := names.filter (!tied.contains ·)
    names.filter (!(tied ++ loose.take k).contains ·) = loose.drop k := by
  intro loose
  have hsplit : names.filter (!(tied ++ loose.take k).contains ·) =
      loose.filter (!(loose.take k).contains ·) := by
    rw [List.filter_filter]
    exact List.filter_congr fun name _ => by simp [Bool.and_comm]
  rw [hsplit, filter_take (hnames.filter _)]

/-! ## Suggestions -/

namespace Mentions

/-- The functions that are called and not declared, in the order of the first call. -/
def undeclared (m : Mentions) : List String := m.called.eraseDups.filter (!m.declared.contains ·)

/-- The registers that are written and not printed, in the order of the first write. -/
def unprinted (m : Mentions) : List String := m.written.eraseDups.filter (!m.printed.contains ·)

theorem isFunctionName_of_undeclared {source f : String} (h : f ∈ (ofSource source).undeclared) :
    isFunctionName f.toList = true := by
  have hcalled : f ∈ (ofSource source).called := List.mem_eraseDups.1 (List.mem_of_mem_filter h)
  exact (mem_called.1 hcalled).isGrammatical

theorem isName_of_unprinted {source r : String} (h : r ∈ (ofSource source).unprinted) :
    isName r.toList = true := by
  have hwritten : r ∈ (ofSource source).written := List.mem_eraseDups.1 (List.mem_of_mem_filter h)
  obtain ⟨a, ha, hdest⟩ := mem_written.1 hwritten
  exact Action.isGrammatical_dest ha.isGrammatical hdest

/-- Declaring the first undeclared functions leaves the others. -/
theorem undeclared_append (m : Mentions) (k : Nat) (printed : List String) :
    (m.append { printed, declared := m.undeclared.take k }).undeclared = m.undeclared.drop k := by
  simpa [undeclared, append] using filter_tied (nodup_eraseDups m.called) k

/-- Printing the first unprinted registers leaves the others. -/
theorem unprinted_append (m : Mentions) (k : Nat) (declared : List String) :
    (m.append { printed := m.unprinted.take k, declared }).unprinted = m.unprinted.drop k := by
  simpa [unprinted, append] using filter_tied (nodup_eraseDups m.written) k

end Mentions

theorem allSuggestions_eq (source : String) :
    allSuggestions source = (Mentions.ofSource source).undeclared.map declareLine ++
      (Mentions.ofSource source).unprinted.map printLine := rfl

theorem nodup_allSuggestions (source : String) : (allSuggestions source).Nodup := by
  have hdeclare : Function.Injective declareLine := by
    intro f g h
    rw [← String.toList_inj, toList_declareLine, toList_declareLine] at h
    exact String.toList_inj.1 (List.append_cancel_left h)
  have hprint : Function.Injective printLine := by
    intro r q h
    rw [← String.toList_inj, toList_printLine, toList_printLine] at h
    exact String.toList_inj.1 (List.append_cancel_left h)
  rw [allSuggestions_eq, List.nodup_append]
  refine ⟨((nodup_eraseDups _).filter _).map hdeclare,
    ((nodup_eraseDups _).filter _).map hprint, ?_⟩
  rintro _ hfunction _ hregister
  obtain ⟨f, -, rfl⟩ := List.mem_map.1 hfunction
  obtain ⟨r, -, rfl⟩ := List.mem_map.1 hregister
  exact declare_ne_print f r

/-- **Following.** With the first suggestions below it, a source has the other suggestions. -/
theorem allSuggestions_followed (source : String) (k : Nat) :
    allSuggestions (source ++ "\n" ++ "\n".intercalate ((allSuggestions source).take k)) =
      (allSuggestions source).drop k := by
  generalize hm : Mentions.ofSource source = m
  have hf : ∀ f ∈ m.undeclared, isFunctionName f.toList = true := by
    rw [← hm]
    exact fun f => Mentions.isFunctionName_of_undeclared
  have hr : ∀ r ∈ m.unprinted, isName r.toList = true := by
    rw [← hm]
    exact fun r => Mentions.isName_of_unprinted
  -- functions come first, so the first suggestions are some of them or all of them and registers
  generalize hk' : k - m.undeclared.length = k'
  have htake : (allSuggestions source).take k =
      (m.undeclared.take k).map declareLine ++ (m.unprinted.take k').map printLine := by
    rw [allSuggestions_eq, hm, List.take_append, List.length_map, hk', List.map_take, List.map_take]
  have hdrop : (allSuggestions source).drop k =
      (m.undeclared.drop k).map declareLine ++ (m.unprinted.drop k').map printLine := by
    rw [allSuggestions_eq, hm, List.drop_append, List.length_map, hk', List.map_drop, List.map_drop]
  have hmentions : Mentions.ofSource
        (source ++ "\n" ++ "\n".intercalate ((allSuggestions source).take k)) =
      m.append { printed := m.unprinted.take k', declared := m.undeclared.take k } := by
    rw [Mentions.ofSource_append, hm, htake,
      Mentions.ofSource_suggested (fun f h => hf f (List.mem_of_mem_take h))
        (fun r h => hr r (List.mem_of_mem_take h))]
  rw [allSuggestions_eq, hmentions, m.undeclared_append, m.unprinted_append, hdrop]

/-- **Suggestions tie up what they name.** They are all different, functions to declare before
registers to print, and a limit cuts them off at the end. If the first of them are written below the
source, each on a line of its own, exactly the others are suggested, in the same order; if all are
written there, none. -/
theorem suggestions_tie_up (source : String) :
    (allSuggestions source).Nodup ∧
    (∃ functions registers : List String, allSuggestions source =
      functions.map ("declare function " ++ ·) ++ registers.map ("print " ++ ·)) ∧
    (∀ limit, suggest limit source = (allSuggestions source).take limit) ∧
    (∀ k, allSuggestions (source ++ "\n" ++ "\n".intercalate ((allSuggestions source).take k)) =
      (allSuggestions source).drop k) ∧
    allSuggestions (source ++ "\n" ++ "\n".intercalate (allSuggestions source)) = [] := by
  have hall := allSuggestions_followed source (allSuggestions source).length
  rw [List.take_length, List.drop_length] at hall
  exact ⟨nodup_allSuggestions source, ⟨_, _, rfl⟩, fun _ => rfl, allSuggestions_followed source,
    hall⟩

/-- A function to declare and a register to print, and what is left when the first is followed. -/
example :
    allSuggestions "mov a, 5; call f\npop b\nprint a" = ["declare function f", "print b"] ∧
    allSuggestions "mov a, 5; call f\npop b\nprint a\ndeclare function f" = ["print b"] := by
  decide +kernel

end LineAsm
