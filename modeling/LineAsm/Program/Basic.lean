import LineAsm.Declaration
import Std.Data.ExtTreeMap

/-!
# Programs

A program is its main code, the bodies of its functions, the declarations it notes and what is wrong
with its source. Functions are kept in the order of their names.
-/
namespace LineAsm

/-- A statement on a line of the source. -/
structure Instruction where
  line : Nat
  statement : Statement
  deriving DecidableEq

def Instruction.text (i : Instruction) : String := i.statement.text

/-- Function bodies by name. -/
abbrev Functions := Std.ExtTreeMap String (List Instruction)

/-- Writing all that a map lists into an empty map gives the map. -/
theorem insertMany_toList {α β : Type} [BEq α] [LawfulBEq α] {cmp : α → α → Ordering}
    [Std.TransCmp cmp] [Std.LawfulEqCmp cmp] (t : Std.ExtTreeMap α β cmp) :
    (∅ : Std.ExtTreeMap α β cmp).insertMany t.toList = t := by
  apply Std.ExtTreeMap.ext_getElem?
  intro key
  cases hkey : t[key]? with
  | some value =>
    have hmem := Std.ExtTreeMap.mem_toList_iff_getElem?_eq_some.2 hkey
    exact Std.ExtTreeMap.getElem?_insertMany_list_of_mem Std.ReflCmp.compare_self
      Std.ExtTreeMap.distinct_keys_toList hmem
  | none =>
    have hkeys : (t.toList.map Prod.fst).contains key = false := by
      simp [Std.ExtTreeMap.map_fst_toList_eq_keys, Std.ExtTreeMap.mem_iff_isSome_getElem?, hkey]
    rw [Std.ExtTreeMap.getElem?_insertMany_list_of_contains_eq_false hkeys]
    rfl

/-- A declaration that a program notes. -/
inductive Declaration where
  | var (line : Nat) (content : Variable)
  | function (line : Nat) (name : String)
  | other (line : Nat) (text : String)
  deriving DecidableEq

/-- What can be wrong with a source. -/
inductive Problem where
  | unrecognized (statements : List String)
  | invalidFunctionName (name : String)
  | nestedFunction (name enclosing : String)
  | unterminatedFunction (name : String)
  | strayEnd
  deriving DecidableEq

namespace Problem

def message : Problem → String
  | unrecognized statements => "unrecognized line format: " ++ "; ".intercalate statements
  | invalidFunctionName name => s!"invalid function name '{name}'"
  | nestedFunction name _ => s!"function '{name}' cannot be declared inside another function"
  | unterminatedFunction name => s!"function '{name}' is missing its 'end'"
  | strayEnd => "'end' without a matching 'declare function'"

/-- How to mend the source, where there is something to say. -/
def hint : Problem → Option String
  | unrecognized _ =>
    some "expected a declaration, '<mnemonic> <operands>', 'if ... then ...' or 'print ...'"
  | nestedFunction _ enclosing => some s!"close '{enclosing}' with 'end' first"
  | unterminatedFunction _ => some "close the function body with 'end'"
  | invalidFunctionName _ | strayEnd => none

end Problem

/-- A problem on a line. -/
structure Diagnostic where
  line : Nat
  problem : Problem
  deriving DecidableEq

def Diagnostic.render (d : Diagnostic) : String :=
  let head := "line " ++ d.line.repr ++ ": " ++ d.problem.message
  match d.problem.hint with
  | none => head
  | some hint => head ++ " (hint: " ++ hint ++ ")"

/-- A compiled source. -/
structure Program where
  code : List Instruction
  functions : Functions
  declarations : List Declaration
  diagnostics : List Diagnostic

end LineAsm
