import LineAsm.Word

/-!
# Operands and conditions

An operand is read, a place is written: a place is a register or a memory cell, and an operand is a
place or a literal. Cells are named by a container and an address in it, which is an index (literal
or taken from a register) or a key. A condition is one operand, which holds when it is not zero, or
two operands under a comparison.

`render` gives each of them its one canonical text.
-/
namespace LineAsm

/-- The index of an array cell. -/
inductive Index where
  | literal (value : Word)
  | register (name : String)
  deriving DecidableEq

/-- Where in its container a cell lies. -/
inductive Address where
  | index (index : Index)
  | key (key : String)
  deriving DecidableEq

/-- A memory cell as a statement names it. -/
structure Cell where
  container : String
  address : Address
  deriving DecidableEq

/-- A destination. -/
inductive Place where
  | register (name : String)
  | cell (cell : Cell)
  deriving DecidableEq

/-- A source of a value. -/
inductive Operand where
  | literal (value : Word)
  | place (place : Place)
  deriving DecidableEq

/-- The comparisons of two words. -/
inductive Comparison where
  | eq | ne | le | ge | lt | gt
  deriving DecidableEq

/-- What an `if` or a loop tests. -/
inductive Condition where
  | nonzero (operand : Operand)
  | compare (lhs : Operand) (comparison : Comparison) (rhs : Operand)
  deriving DecidableEq

def Index.render : Index → String
  | .literal value => value.render
  | .register name => name

def Cell.render (cell : Cell) : String :=
  match cell.address with
  | .index index => cell.container ++ "[" ++ index.render ++ "]"
  | .key key => cell.container ++ "\x7b" ++ key ++ "\x7d"

def Place.render : Place → String
  | .register name => name
  | .cell c => c.render

def Operand.render : Operand → String
  | .literal value => value.render
  | .place p => p.render

namespace Comparison

def all : List Comparison := [.eq, .ne, .le, .ge, .lt, .gt]

def symbol : Comparison → String
  | .eq => "=="
  | .ne => "!="
  | .le => "<="
  | .ge => ">="
  | .lt => "<"
  | .gt => ">"

/-- The comparison with a given symbol. -/
def ofSymbol? (symbol : String) : Option Comparison :=
  all.find? fun c => c.symbol == symbol

/-- Whether a comparison holds between two words. -/
def holds (c : Comparison) (a b : Word) : Bool :=
  match c with
  | .eq => decide (a = b)
  | .ne => decide (a ≠ b)
  | .le => decide (a ≤ b)
  | .ge => decide (b ≤ a)
  | .lt => decide (a < b)
  | .gt => decide (b < a)

end Comparison

def Condition.render : Condition → String
  | .nonzero operand => operand.render
  | .compare lhs comparison rhs => lhs.render ++ " " ++ comparison.symbol ++ " " ++ rhs.render

end LineAsm
