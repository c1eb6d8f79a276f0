import LineAsm.Operand.Basic
import LineAsm.Text.Blank

/-!
# Reading operands and conditions

`Place.parse`, `Operand.parse` and `Condition.parse` read a whole token or text. The classes of
characters that delimit the parts do not overlap, so each part is a longest run and nothing is tried
twice.
-/
namespace LineAsm

open Text

/-- Why a token or a condition cannot be read. -/
inductive OperandError where
  | malformed (token : String)
  | badIndex (index token : String)
  | outOfRange (numeral : String)
  | condition (text : String)
  deriving DecidableEq

def OperandError.message : OperandError → String
  | .malformed token => s!"malformed operand '{token}'"
  | .badIndex index token => s!"malformed array index '{index}' in '{token}'"
  | .outOfRange numeral => s!"integer literal '{numeral}' out of range"
  | .condition text => s!"malformed condition '{text}'"

/-! ## Classes of characters -/

def isNameStart (c : Char) : Bool := c.isAlpha || c == '_'

def isNameChar (c : Char) : Bool := c.isAlphanum || c == '_'

/-- Register and container names: a letter or an underscore, then letters, digits, underscores. -/
def isName : List Char → Bool
  | [] => false
  | c :: cs => isNameStart c && cs.all isNameChar

def isKeyChar (c : Char) : Bool := c.isAlphanum || c == '_' || c == '.' || c == '-'

/-- An index may hold anything but brackets and braces; what it holds is checked afterwards. -/
def isIndexChar (c : Char) : Bool := c != '[' && c != ']' && c != '\x7b' && c != '\x7d'

/-- The characters of an operand inside a condition. -/
def isOperandChar (c : Char) : Bool :=
  !isBlank c && c != ',' && c != '<' && c != '>' && c != '=' && c != '!'

/-! ## Tokens -/

/-- Splits `name`, an opening bracket, a non-empty run of a class and a closing bracket that ends
the token. -/
def bracketed? (opening closing : Char) (inside : Char → Bool) (token : List Char) :
    Option (List Char × List Char) :=
  match token.dropWhile isNameChar with
  | [] => none
  | c :: rest =>
    let name := token.takeWhile isNameChar
    let content := rest.takeWhile inside
    if c = opening ∧ isName name ∧ content ≠ [] ∧ rest.dropWhile inside = [closing] then
      some (name, content)
    else none

/-- The value of a numeral that fits a word. -/
def parseNumeral (token : List Char) : Except OperandError Word :=
  match Word.ofInt? (numeralValue token) with
  | some value => .ok value
  | none => .error (.outOfRange (String.ofList token))

/-- Reads what stands between the brackets of `token`. -/
def Index.parse (token index : List Char) : Except OperandError Index :=
  if isNumeral index then (parseNumeral index).map .literal
  else if isName index then .ok (.register (String.ofList index))
  else .error (.badIndex (String.ofList index) (String.ofList token))

/-- Reads a destination. -/
def Place.parse (token : List Char) : Except OperandError Place :=
  match bracketed? '[' ']' isIndexChar token with
  | some (name, index) =>
    (Index.parse token index).map fun i => .cell ⟨String.ofList name, .index i⟩
  | none =>
    match bracketed? '\x7b' '\x7d' isKeyChar token with
    | some (name, key) => .ok (.cell ⟨String.ofList name, .key (String.ofList key)⟩)
    | none =>
      if isName token then .ok (.register (String.ofList token))
      else .error (.malformed (String.ofList token))

/-- Reads a source operand. -/
def Operand.parse (token : List Char) : Except OperandError Operand :=
  if isNumeral token then (parseNumeral token).map .literal
  else (Place.parse token).map .place

/-! ## Conditions -/

/-- The comparison at the start of a text, the longer symbol first, and what follows it. -/
def Comparison.strip? : List Char → Option (Comparison × List Char)
  | '=' :: '=' :: rest => some (.eq, rest)
  | '!' :: '=' :: rest => some (.ne, rest)
  | '<' :: '=' :: rest => some (.le, rest)
  | '>' :: '=' :: rest => some (.ge, rest)
  | '<' :: rest => some (.lt, rest)
  | '>' :: rest => some (.gt, rest)
  | _ => none

/-- The tokens of a condition: one, or two around a comparison. -/
def Condition.tokens? (text : List Char) :
    Option (List Char × Option (Comparison × List Char)) :=
  let lhs := text.takeWhile isOperandChar
  if lhs = [] then none
  else
    match dropBlanks (text.dropWhile isOperandChar) with
    | [] => some (lhs, none)
    | rest =>
      match Comparison.strip? rest with
      | none => none
      | some (comparison, after) =>
        let rhs := dropBlanks after
        if rhs ≠ [] ∧ rhs.all isOperandChar then some (lhs, some (comparison, rhs)) else none

/-- Reads a condition. Blanks around it do not count, but an error shows the text as given. -/
def Condition.parse (text : List Char) : Except OperandError Condition :=
  match Condition.tokens? (trim text) with
  | none => .error (.condition (String.ofList text))
  | some (lhs, none) => (Operand.parse lhs).map .nonzero
  | some (lhs, some (comparison, rhs)) =>
    (Operand.parse lhs).bind fun l => (Operand.parse rhs).map fun r => .compare l comparison r

end LineAsm
