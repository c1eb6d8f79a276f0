import LineAsm.Operand.Parser

/-!
# Statements

A statement does one thing (`Action`), or it is a header, a condition or a loop, around one other
statement. Every statement keeps the text it was read from. A statement whose form is recognised but
whose parts are not is an action too: it fails with its `Fault` when it is executed.

`Statement.chain` lists a statement, its body, the body's body and so on.
-/
namespace LineAsm

/-- The arithmetic operations. -/
inductive Arith where
  | add | sub | mul | div
  deriving DecidableEq

namespace Arith

def all : List Arith := [.add, .sub, .mul, .div]

def mnemonic : Arith → String
  | .add => "add"
  | .sub => "sub"
  | .mul => "mul"
  | .div => "div"

def name : Arith → String
  | .add => "ADD"
  | .sub => "SUB"
  | .mul => "MUL"
  | .div => "DIV"

def ofMnemonic? (mnemonic : String) : Option Arith :=
  all.find? fun op => op.mnemonic == mnemonic

/-- The exact result. A quotient is cut toward zero; there is none by zero. -/
def exact : Arith → Int → Int → Option Int
  | .add, a, b => some (a + b)
  | .sub, a, b => some (a - b)
  | .mul, a, b => some (a * b)
  | .div, a, b => if b = 0 then none else some (a.tdiv b)

/-- The exact result, if it exists and is a word. -/
def apply (op : Arith) (a b : Word) : Option Word :=
  (op.exact a.toInt b.toInt).bind Word.ofInt?

end Arith

/-- The operations that take a list of operands. -/
inductive Mnemonic where
  | mov
  | arith (op : Arith)
  | push
  | pop
  | call
  deriving DecidableEq

namespace Mnemonic

def all : List Mnemonic := [.mov, .push, .pop, .call] ++ Arith.all.map .arith

def name : Mnemonic → String
  | .mov => "mov"
  | .arith op => op.mnemonic
  | .push => "push"
  | .pop => "pop"
  | .call => "call"

/-- How many operands the operation takes. -/
def arity : Mnemonic → Nat
  | .mov | .arith _ => 2
  | .push | .pop | .call => 1

def ofName? (name : String) : Option Mnemonic :=
  all.find? fun m => m.name == name

end Mnemonic

/-- The three loops. -/
inductive LoopKind where
  | times | whileTrue | doWhile
  deriving DecidableEq

namespace LoopKind

def all : List LoopKind := [.times, .whileTrue, .doWhile]

def name : LoopKind → String
  | .times => "for"
  | .whileTrue => "while"
  | .doWhile => "do-while"

def ofName? (name : String) : Option LoopKind :=
  all.find? fun k => k.name == name

end LoopKind

/-- The statement forms whose parts can be malformed. -/
inductive Form where
  | operation (mnemonic : Mnemonic)
  | loop (kind : LoopKind)
  | conditional
  | print
  deriving DecidableEq

def Form.name : Form → String
  | .operation mnemonic => mnemonic.name
  | .loop kind => "loop " ++ kind.name
  | .conditional => "if"
  | .print => "print"

/-- How many headers may stand around a statement. -/
def maxNesting : Nat := 64

/-- What is wrong with a part of a statement. -/
inductive Defect where
  | operandCount (expected found : Nat)
  | operand (error : OperandError)
  | cellDestination (cell : Cell)
  | functionName (name : String)
  | loopShape (kind : LoopKind)
  | unterminatedText
  | nesting
  | nestedDeclaration (text : String)
  | unrecognized (text : String)
  deriving DecidableEq

def Defect.message : Defect → String
  | .operandCount expected found => s!"expected {expected} operand(s), got {found}"
  | .operand error => error.message
  | .cellDestination cell => "destination must be a register, got '" ++ cell.render ++ "'"
  | .functionName name => s!"invalid function name '{name}'"
  | .loopShape .times => "expected 'loop for <count> <statement>'"
  | .loopShape kind => "expected 'loop " ++ kind.name ++ " <condition> <statement>'"
  | .unterminatedText => "unterminated string literal"
  | .nesting => s!"statements nest deeper than {maxNesting} levels"
  | .nestedDeclaration text => s!"declarations cannot be nested: '{text}'"
  | .unrecognized text => s!"unrecognized statement '{text}'"

/-- Why a recognised statement cannot be executed. -/
inductive Fault where
  | unknownCommand (name : String)
  | unknownLoop (kind : String)
  | malformed (form : Form) (defect : Defect)
  deriving DecidableEq

/-- An item of a print statement. -/
inductive PrintItem where
  | text (text : String)
  | value (operand : Operand)
  deriving DecidableEq

/-- What a statement without a body does. `idle` is a condition that guards nothing. -/
inductive Action where
  | mov (dest : Place) (src : Operand)
  | arith (op : Arith) (dest : String) (src : Operand)
  | push (src : Operand)
  | pop (dest : Place)
  | call (function : String)
  | print (items : List PrintItem)
  | idle (condition : Condition)
  | fault (fault : Fault)
  deriving DecidableEq

/-- What stands in front of a body. -/
inductive Header where
  | times (count : Operand)
  | whileTrue (condition : Condition)
  | doWhile (condition : Condition)
  | ifTrue (condition : Condition)
  deriving DecidableEq

/-- An executable statement with the text it was read from. -/
inductive Statement where
  | simple (text : String) (action : Action)
  | block (text : String) (header : Header) (body : Statement)
  deriving DecidableEq

def Action.tag : Action → String
  | .mov .. => "MOV"
  | .arith op .. => op.name
  | .push _ => "PUSH"
  | .pop _ => "POP"
  | .call _ => "CALL"
  | .print _ => "PRINT"
  | .idle _ => "IF"
  | .fault _ => "UNRECOGNIZED"

def Header.tag : Header → String
  | .times _ => "LOOP_FOR"
  | .whileTrue _ => "LOOP_WHILE"
  | .doWhile _ => "LOOP_DO_WHILE"
  | .ifTrue _ => "IF"

namespace Statement

def text : Statement → String
  | simple text _ => text
  | block text .. => text

/-- The upper-case name of what a statement does. -/
def tag : Statement → String
  | simple _ action => action.tag
  | block _ header _ => header.tag

/-- The statement, its body, the body of its body and so on. -/
def chain : Statement → List Statement
  | s@(simple ..) => [s]
  | s@(block _ _ body) => s :: body.chain

end Statement

end LineAsm
