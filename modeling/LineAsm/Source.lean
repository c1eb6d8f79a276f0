import LineAsm.Text.Blank

/-!
# Source texts

A source is a list of lines, numbered from 1, and a line holds statements divided by semicolons. A
semicolon between double quotes divides nothing; quotes count anew on every line. Statements are
trimmed, and empty ones are dropped. A carriage return before the end of a line is a blank and goes
with the trimming.
-/
namespace LineAsm

open Text

/-- The lines of a source. -/
def sourceLines (source : List Char) : List (List Char) := source.splitOn '\n'

/-- Cuts at the semicolons outside quotes; `quoted` says whether the text starts inside. -/
def splitOutside : (quoted : Bool) → List Char → List (List Char)
  | _, [] => [[]]
  | quoted, c :: cs =>
    if c = ';' ∧ quoted = false then [] :: splitOutside quoted cs
    else (splitOutside (if c = '"' then !quoted else quoted) cs).modifyHead (c :: ·)

/-- The parts of a line between its dividing semicolons. -/
def splitStatements (line : List Char) : List (List Char) := splitOutside false line

/-- The statements of a line. -/
def lineStatements (line : List Char) : List String :=
  (((splitStatements line).map trim).filter (!·.isEmpty)).map String.ofList

/-- The statements of a source, each with the number of its line. -/
def statements (source : String) : List (Nat × String) :=
  ((sourceLines source.toList).zipIdx 1).flatMap fun (line, number) =>
    (lineStatements line).map (number, ·)

end LineAsm
