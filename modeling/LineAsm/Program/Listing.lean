import LineAsm.Program.Basic
import LineAsm.Text.Padded
import LineAsm.Text.Quoted

/-!
# Listings

A listing has a row for every instruction: its offset, its line (or a bar if the row before is of
the same line), what it does and its text. A fault is added with its texts quoted.
-/
namespace LineAsm

open Text

/-- A fault with quoted texts. -/
def Fault.render : Fault → String
  | .unknownCommand name => "UnknownCommand(" ++ quote name ++ ")"
  | .unknownLoop kind => "UnknownLoopKind(" ++ quote kind ++ ")"
  | .malformed form defect =>
    "MalformedOperand \x7b mnemonic: " ++ quote form.name ++ ", detail: " ++ quote defect.message
      ++ " \x7d"

def Statement.fault? : Statement → Option Fault
  | .simple _ (.fault fault) => some fault
  | _ => none

/-- One row, without its line end. -/
def listingRow (previous : Option Nat) (offset : Nat) (i : Instruction) : String :=
  let line := if previous = some i.line then "   |" else padLeft ' ' 4 i.line.repr
  let row := padLeft '0' 4 offset.repr ++ " " ++ line ++ " " ++
    padRight ' ' 14 i.statement.tag ++ " " ++ i.text
  match i.statement.fault? with
  | none => row
  | some fault => row ++ "    ; " ++ fault.render

/-- The rows of a list of instructions from an offset on. -/
def listingRows (previous : Option Nat) (offset : Nat) : List Instruction → List String
  | [] => []
  | i :: rest => listingRow previous offset i :: listingRows (some i.line) (offset + 1) rest

/-- The listing of one list of instructions under a name. -/
def listing (name : String) (code : List Instruction) : String :=
  String.join ((("== " ++ name ++ " ==") :: listingRows none 0 code).map (· ++ "\n"))

/-- The listing of the main code and then of every function. -/
def Program.listing (p : Program) : String :=
  LineAsm.listing "main" p.code ++
    String.join (p.functions.toList.map fun (name, body) => "\n" ++ LineAsm.listing name body)

end LineAsm
