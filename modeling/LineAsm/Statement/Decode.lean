import LineAsm.Statement.Shape

/-!
# Reading statements

`Statement.decode` reads an executable statement. Declarations and unrecognised texts give `none`.
A statement of a known form with a malformed part is still a statement: it carries the fault.

Bodies are read by the same rules as whole statements, at most `maxNesting` deep. A body that is no
executable statement, or that lies too deep, is a fault of the statement around it.
-/
namespace LineAsm

open Text

def isFunctionNameChar (c : Char) : Bool := c.isAlphanum || c == '_' || c == '-'

/-- Function names: like register names, with hyphens after the first character. -/
def isFunctionName : List Char → Bool
  | [] => false
  | c :: cs => isNameStart c && cs.all isFunctionNameChar

/-- The text in ASCII lower case. -/
def lowerCase (cs : List Char) : String := String.ofList (cs.map Char.toLower)

/-- Reads the operands of an operation. -/
def Mnemonic.read (mnemonic : Mnemonic) (operands : List (List Char)) : Except Defect Action :=
  match mnemonic, operands with
  | .mov, [dest, src] => do
    let dest ← (Place.parse dest).mapError .operand
    let src ← (Operand.parse src).mapError .operand
    return .mov dest src
  | .arith op, [dest, src] => do
    match ← (Place.parse dest).mapError .operand with
    | .register name => return .arith op name (← (Operand.parse src).mapError .operand)
    | .cell cell => throw (.cellDestination cell)
  | .push, [src] => ((Operand.parse src).mapError .operand).map .push
  | .pop, [dest] => ((Place.parse dest).mapError .operand).map .pop
  | .call, [name] =>
    if isFunctionName name then .ok (.call (String.ofList name))
    else .error (.functionName (String.ofList name))
  | _, _ => .error (.operandCount mnemonic.arity operands.length)

/-! ## Print items -/

/-- Reads the items of a print statement, at most `fuel` of them. Between two items stand blanks,
commas and blanks, in that order and each possibly none. -/
def printItemsWithin : (fuel : Nat) → List Char → Except Defect (List PrintItem)
  | 0, _ => .ok []
  | fuel + 1, text =>
    match dropBlanks ((dropBlanks text).dropWhile (· == ',')) with
    | [] => .ok []
    | '"' :: rest =>
      match rest.dropWhile (· != '"') with
      | [] => .error .unterminatedText
      | _ :: after => do
        let items ← printItemsWithin fuel after
        return .text (String.ofList (rest.takeWhile (· != '"'))) :: items
    | rest => do
      let operand ← (Operand.parse (rest.takeWhile (!isSeparator ·))).mapError .operand
      let items ← printItemsWithin fuel (rest.dropWhile (!isSeparator ·))
      return .value operand :: items

/-- Reads the items of a print statement. Each takes at least one character. -/
def printItems (text : List Char) : Except Defect (List PrintItem) :=
  printItemsWithin (text.length + 1) text

/-! ## Statements -/

/-- Reads what follows `loop`. The reader of bodies is told which form asks. -/
def decodeLoop (nested : Form → List Char → Except Fault Statement) (text : String)
    (rest : List Char) : Except Fault Statement :=
  let kindName := rest.takeWhile (!isBlank ·)
  let tail := trim (rest.dropWhile (!isBlank ·))
  match LoopKind.ofName? (lowerCase kindName) with
  | none => .error (.unknownLoop (lowerCase kindName))
  | some .times =>
    let malformed := Fault.malformed (.loop .times)
    match countedBody? tail with
    | none => .error (malformed (.loopShape .times))
    | some (count, body) => do
      let count ← (Operand.parse count).mapError (malformed ∘ .operand)
      return .block text (.times count) (← nested (.loop .times) body)
  | some kind =>
    let malformed := Fault.malformed (.loop kind)
    match guardedBody? tail with
    | none => .error (malformed (.loopShape kind))
    | some (condition, body) => do
      let condition ← (Condition.parse condition).mapError (malformed ∘ .operand)
      let body ← nested (.loop kind) body
      return .block text (if kind = .doWhile then .doWhile condition else .whileTrue condition) body

/-- Reads an assembly statement. -/
def decodeAssembly (nested : Form → List Char → Except Fault Statement) (text : String)
    (mnemonic rest : List Char) : Except Fault Statement :=
  let name := lowerCase mnemonic
  if name = "loop" then decodeLoop nested text rest
  else
    match Mnemonic.ofName? name with
    | none => .error (.unknownCommand name)
    | some m => ((m.read (words isSeparator rest)).mapError (.malformed (.operation m))).map
        (.simple text)

/-- Reads a condition and its body. -/
def decodeConditional (nested : Form → List Char → Except Fault Statement) (text : String)
    (condition : List Char) (body : Option (List Char)) : Except Fault Statement := do
  let condition ← (Condition.parse condition).mapError (.malformed .conditional ∘ .operand)
  match body with
  | none => return .simple text (.idle condition)
  | some body => return .block text (.ifTrue condition) (← nested .conditional body)

/-- A statement, or the fault as a statement. -/
def Statement.orFault (text : String) : Except Fault Statement → Statement
  | .ok statement => statement
  | .error fault => .simple text (.fault fault)

/-- Reads a text of known shape with a given reader of bodies. -/
def Shape.decode (nested : Form → List Char → Except Fault Statement) (text : String) :
    Shape → Option Statement
  | .declaration | .unrecognized => none
  | .assembly mnemonic rest =>
    some (.orFault text (decodeAssembly nested text mnemonic rest))
  | .conditional condition body =>
    some (.orFault text (decodeConditional nested text condition body))
  | .print items =>
    some (.orFault text (((printItems items).map fun is => .simple text (.print is)).mapError
      (.malformed .print)))

/-- Reads the body of a statement inside which `room` more levels are allowed. -/
def decodeNested : (room : Nat) → Form → List Char → Except Fault Statement
  | 0, form, _ => .error (.malformed form .nesting)
  | room + 1, form, body =>
    match Shape.of body with
    | .declaration => .error (.malformed form (.nestedDeclaration (String.ofList body)))
    | shape =>
      match shape.decode (decodeNested room) (String.ofList body) with
      | some statement => .ok statement
      | none => .error (.malformed form (.unrecognized (String.ofList body)))

/-- Reads an executable statement. -/
def Statement.decode (text : String) : Option Statement :=
  (Shape.of text.toList).decode (decodeNested maxNesting) text

end LineAsm
