import LineAsm.Statement.Decode

/-!
# Declarations

Texts that start with `declare`. A function declaration opens a block; the others are notes: a
variable with its type and, possibly, an initial value, or any other text.
-/
namespace LineAsm

open Text

def functionWord : List Char := "function".toList

/-- The name in `declare function <name>`, unchecked and possibly empty. Blanks between the two
keywords may be absent. -/
def functionDeclaration? (text : String) : Option String :=
  (declareWord.isPrefixOf? text.toList).bind fun afterDeclare =>
    (functionWord.isPrefixOf? (dropBlanks afterDeclare)).bind fun name =>
      if (name.takeWhile isBlank).isEmpty ∧ name ≠ [] then none
      else some (String.ofList (trim name))

/-- A variable as its declaration names it. -/
structure Variable where
  type : String
  name : String
  init : Option String
  deriving DecidableEq

/-- A name at the start of a text and what follows it. -/
def leadingName? (text : List Char) : Option (List Char × List Char) :=
  let name := text.takeWhile isNameChar
  if isName name then some (name, text.dropWhile isNameChar) else none

/-- What follows at least one blank. -/
def afterBlanks? (text : List Char) : Option (List Char) :=
  if (text.takeWhile isBlank).isEmpty then none else some (dropBlanks text)

/-- The initial value after the name of a variable: none at the end of the text, otherwise what
stands after an equals sign, on one line. Blanks alone after the sign are an empty value, unless the
last of them is a newline. -/
def initialValue? (text : List Char) : Option (Option String) :=
  match text, dropBlanks text with
  | [], _ => some none
  | _, '=' :: value =>
    match dropBlanks value with
    | [] => if value ≠ [] ∧ value.getLast? ≠ some '\n' then some (some "") else none
    | rest => if isOneLine rest then some (some (String.ofList (trim rest))) else none
  | _, _ => none

/-- Reads `declare <type> <name>` with an optional initial value. -/
def variableDeclaration? (text : String) : Option Variable := do
  let afterDeclare ← afterBlanks? (← declareWord.isPrefixOf? text.toList)
  let (type, afterType) ← leadingName? afterDeclare
  let (name, afterName) ← leadingName? (← afterBlanks? afterType)
  let init ← initialValue? afterName
  return ⟨String.ofList type, String.ofList name, init⟩

end LineAsm
