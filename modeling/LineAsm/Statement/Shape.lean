import LineAsm.Statement.Basic

/-!
# The shape of a statement's text

`Shape.of` decides by form alone what a text is: a declaration, an assembly statement, a condition
with or without a body, a print statement, or nothing known. The parts are cut out and not yet read.

Keywords lose to the assembly form only where their own form does not fit: `if x y` is an assembly
statement with an unknown mnemonic, `print x` never is.

A condition ends at the first `then` that lets the rest of the text fit, even if that `then` was
meant as a name.
-/
namespace LineAsm

open Text

/-- The statement classes, with the parts of each. -/
inductive Shape where
  | declaration
  | assembly (mnemonic rest : List Char)
  | conditional (condition : List Char) (body : Option (List Char))
  | print (items : List Char)
  | unrecognized
  deriving DecidableEq

def declareWord : List Char := "declare".toList
def printWord : List Char := "print".toList
def ifWord : List Char := "if".toList
def thenWord : List Char := "then".toList

/-! ## Assembly statements -/

def isMnemonicChar (c : Char) : Bool := c.isAlpha || c == '-'

/-- A mnemonic, blanks, and a rest on one line. -/
def assembly? (text : List Char) : Option (List Char × List Char) :=
  let mnemonic := text.takeWhile isMnemonicChar
  let after := text.dropWhile isMnemonicChar
  let rest := dropBlanks after
  match mnemonic with
  | [] => none
  | c :: _ =>
    if c.isAlpha ∧ (after.takeWhile isBlank) ≠ [] ∧ rest ≠ [] ∧ isOneLine rest then
      some (mnemonic, rest)
    else none

/-! ## Conditional statements -/

/-- The body after `then`: blanks, and then a text on one line. A text of blanks alone is an empty
body, if a blank other than a newline ends it and another one stands before it. -/
def thenBody? (text : List Char) : Option (List Char) :=
  let gap := text.takeWhile isBlank
  match dropBlanks text with
  | [] => if 2 ≤ gap.length ∧ gap.getLast? ≠ some '\n' then some [] else none
  | body => if gap ≠ [] ∧ isOneLine body then some (trim body) else none

/-- `then` and what may follow it: nothing or a body. -/
def thenTail? (text : List Char) : Option (Option (List Char)) :=
  match thenWord.isPrefixOf? text with
  | none => none
  | some [] => some none
  | some rest => (thenBody? rest).map some

/-- What stands after a condition: blanks, `then` and its tail. -/
def conditionTail? (text : List Char) : Option (Option (List Char)) :=
  if (text.takeWhile isBlank).isEmpty then none else thenTail? (dropBlanks text)

/-- The shortest condition on one line that blanks and `then` follow. It ends in a character that is
not blank. -/
def shortestCondition? : List Char → Option (List Char × Option (List Char))
  | [] => none
  | c :: cs =>
    if c = '\n' then none
    else
      match if isBlank c then none else conditionTail? cs with
      | some body => some ([c], body)
      | none => (shortestCondition? cs).map fun (condition, body) => (c :: condition, body)

/-- `if`, blanks, a condition without outer blanks, and its tail. Where no condition is written but
a blank other than a newline stands between two blanks, that blank is the condition: it is empty. -/
def conditional? (text : List Char) : Option (List Char × Option (List Char)) :=
  match ifWord.isPrefixOf? text with
  | none => none
  | some rest =>
    let gap := rest.takeWhile isBlank
    let after := dropBlanks rest
    if gap = [] then none
    else
      match shortestCondition? after with
      | some parts => some parts
      | none =>
        if gap.tail.dropLast.any (· ≠ '\n') then (thenTail? after).map fun body => ([], body)
        else none

/-! ## All shapes -/

/-- The shape of a text that is no assembly statement. -/
def keywordShape (text : List Char) : Shape :=
  match conditional? text with
  | some (condition, body) => .conditional condition body
  | none =>
    match printWord.isPrefixOf? text with
    | some items => .print (trim items)
    | none => .unrecognized

/-- The shape of a text. -/
def Shape.of (text : List Char) : Shape :=
  if declareWord.isPrefixOf text then .declaration
  else
    match assembly? text with
    | none => keywordShape text
    | some (mnemonic, rest) =>
      if mnemonic = printWord then keywordShape text
      else if mnemonic = ifWord then
        match conditional? text with
        | some (condition, body) => .conditional condition body
        | none => .assembly mnemonic rest
      else .assembly mnemonic rest

/-! ## Loops

The text after a loop's kind is trimmed and on one line. -/

def isSeparator (c : Char) : Bool := c == ',' || isBlank c

/-- A count, separators and a body. When the separators reach the end, their last one, a comma, is
the body. -/
def countedBody? (text : List Char) : Option (List Char × List Char) :=
  let count := text.takeWhile (!isSeparator ·)
  let after := text.dropWhile (!isSeparator ·)
  let gap := after.takeWhile isSeparator
  if count = [] ∨ gap = [] then none
  else
    match after.dropWhile isSeparator with
    | [] => if 2 ≤ gap.length ∧ gap.getLast? = some ',' then some (count, [',']) else none
    | body => some (count, body)

/-- Blanks and a body. -/
def bodyAfterBlanks? (text : List Char) : Option (List Char) :=
  if (text.takeWhile isBlank).isEmpty ∨ (dropBlanks text).isEmpty then none
  else some (dropBlanks text)

/-- A comparison and its right operand as they are written, blanks included, and what follows. -/
def comparison? (text : List Char) : Option (List Char × List Char) :=
  match Comparison.strip? (dropBlanks text) with
  | none => none
  | some (_, after) =>
    let rest := dropBlanks after
    let rhs := rest.takeWhile isOperandChar
    if rhs = [] then none
    else
      let follows := rest.dropWhile isOperandChar
      some (text.take (text.length - follows.length), follows)

/-- A condition, blanks and a body. A comparison belongs to the condition if a body follows it;
otherwise the body starts with the comparison. -/
def guardedBody? (text : List Char) : Option (List Char × List Char) :=
  let lhs := text.takeWhile isOperandChar
  let after := text.dropWhile isOperandChar
  if lhs = [] then none
  else
    let compared := (comparison? after).bind fun (comparison, follows) =>
      (bodyAfterBlanks? follows).map fun body => (lhs ++ comparison, body)
    match compared with
    | some parts => some parts
    | none => (bodyAfterBlanks? after).map fun body => (lhs, body)

end LineAsm
