import LineAsm.Program.Basic
import LineAsm.Source

/-!
# Compiling

`compile` reads the statements of a source from the first to the last. A function declaration
outside a block opens one, `end` closes it, and the instructions between them are the function's
body; all other instructions are the main code. Nothing stops the reading: what is wrong is noted
and the statement is left out.

* A block with an invalid name, or without `end`, keeps its instructions to itself.
* The last block of a name wins.
* The unrecognised statements of a line make one diagnostic, after the others of that line.
-/
namespace LineAsm

open Text

/-- What a statement means to the compiler. -/
inductive Role where
  | opens (name : String)
  | closes
  | declares
  | executes (statement : Statement)
  | unrecognized

/-- The role of a statement's text. -/
def Role.of (text : String) : Role :=
  match functionDeclaration? text with
  | some name => .opens name
  | none =>
    if text = "end" then .closes
    else
      match Shape.of text.toList with
      | .declaration => .declares
      | _ =>
        match Statement.decode text with
        | some statement => .executes statement
        | none => .unrecognized

def Role.isUnrecognized : Role → Bool
  | .unrecognized => true
  | _ => false

/-- A function whose `end` is still to come. -/
structure Block where
  name : String
  line : Nat
  body : Array Instruction

/-- A program under construction. -/
structure Builder where
  code : Array Instruction := #[]
  functions : Functions := ∅
  declarations : Array Declaration := #[]
  diagnostics : Array Diagnostic := #[]
  block : Option Block := none

namespace Builder

def report (b : Builder) (line : Nat) (problem : Problem) : Builder :=
  { b with diagnostics := b.diagnostics.push ⟨line, problem⟩ }

/-- Adds an instruction to the open block, or to the main code. -/
def emit (b : Builder) (instruction : Instruction) : Builder :=
  match b.block with
  | none => { b with code := b.code.push instruction }
  | some block => { b with block := some { block with body := block.body.push instruction } }

/-- Notes a declaration that opens no block. -/
def declare (b : Builder) (line : Nat) (text : String) : Builder :=
  let declaration :=
    match variableDeclaration? text with
    | some content => .var line content
    | none => .other line text
  { b with declarations := b.declarations.push declaration }

/-- Opens a block. An invalid name is reported here, and the block is collected all the same. -/
def openBlock (b : Builder) (line : Nat) (name : String) : Builder :=
  match b.block with
  | some block => b.report line (.nestedFunction name block.name)
  | none =>
    let b := if isFunctionName name.toList then b else b.report line (.invalidFunctionName name)
    { b with block := some ⟨name, line, #[]⟩ }

/-- Closes the open block. A function with a valid name is defined and noted. -/
def closeBlock (b : Builder) (line : Nat) : Builder :=
  match b.block with
  | none => b.report line .strayEnd
  | some block =>
    if isFunctionName block.name.toList then
      { b with
        block := none
        functions := b.functions.insert block.name block.body.toList
        declarations := b.declarations.push (.function block.line block.name) }
    else { b with block := none }

/-- Takes in one statement. An unrecognised one changes nothing. -/
def statement (b : Builder) (line : Nat) (text : String) : Builder :=
  match Role.of text with
  | .opens name => b.openBlock line name
  | .closes => b.closeBlock line
  | .declares => b.declare line text
  | .executes statement => b.emit ⟨line, statement⟩
  | .unrecognized => b

/-- Takes in the statements of one line and reports the unrecognised ones together. -/
def line (b : Builder) (number : Nat) (texts : List String) : Builder :=
  let b := texts.foldl (fun b text => b.statement number text) b
  match texts.filter fun text => (Role.of text).isUnrecognized with
  | [] => b
  | unrecognized => b.report number (.unrecognized unrecognized)

/-- The program, when the source is at its end. -/
def finish (b : Builder) : Program :=
  let b :=
    match b.block with
    | none => b
    | some block => b.report block.line (.unterminatedFunction block.name)
  ⟨b.code.toList, b.functions, b.declarations.toList, b.diagnostics.toList⟩

end Builder

/-- The trimmed lines of a source that are not blank, each with its number. -/
def codeLines (source : String) : List (Nat × List Char) :=
  (((sourceLines source.toList).zipIdx 1).map fun (line, number) => (number, trim line)).filter
    fun (_, line) => !line.isEmpty

/-- Compiles a source. -/
def compile (source : String) : Program :=
  ((codeLines source).foldl (fun b (number, line) => b.line number (lineStatements line))
    ({} : Builder)).finish

end LineAsm
