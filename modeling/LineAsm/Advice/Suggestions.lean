import LineAsm.Declaration
import LineAsm.Source

/-!
# Suggested lines

Two loose ends can be seen in a source: a function that is called and not declared, and a register
that is written and not printed. For each a line is suggested that ties it up, functions first, each
kind in the order of the first mention.
-/
namespace LineAsm

/-- The names a source mentions, in order and with repetitions. -/
structure Mentions where
  written : List String := []
  printed : List String := []
  called : List String := []
  declared : List String := []

namespace Mentions

/-- All mentions of the first and then all of the second. -/
def append (a b : Mentions) : Mentions :=
  ⟨a.written ++ b.written, a.printed ++ b.printed, a.called ++ b.called, a.declared ++ b.declared⟩

/-- The register that is a print item by itself. -/
def printedRegister? : PrintItem → Option String
  | .value (.place (.register name)) => some name
  | _ => none

def ofAction : Action → Mentions
  | .mov (.register name) _ | .pop (.register name) | .arith _ name _ => { written := [name] }
  | .call function => { called := [function] }
  | .print items => { printed := items.filterMap printedRegister? }
  | _ => {}

/-- A statement mentions what the action inside all its headers does. -/
def ofStatement : Statement → Mentions
  | .simple _ action => ofAction action
  | .block _ _ body => ofStatement body

/-- The mentions of a statement's text. -/
def ofText (text : String) : Mentions :=
  match functionDeclaration? text with
  | some name => { declared := [name] }
  | none =>
    match Statement.decode text with
    | some statement => ofStatement statement
    | none => {}

/-- The mentions of a whole source. -/
def ofSource (source : String) : Mentions :=
  (statements source).foldr (fun (_, text) later => (ofText text).append later) {}

end Mentions

/-- All suggestions for a source. -/
def allSuggestions (source : String) : List String :=
  let m := Mentions.ofSource source
  ((m.called.eraseDups.filter (!m.declared.contains ·)).map ("declare function " ++ ·)) ++
    ((m.written.eraseDups.filter (!m.printed.contains ·)).map ("print " ++ ·))

/-- The first suggestions for a source, at most `limit` of them. -/
def suggest (limit : Nat) (source : String) : List String := (allSuggestions source).take limit

end LineAsm
