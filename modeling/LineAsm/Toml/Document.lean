import LineAsm.Toml.Scalar

/-!
# Reading documents

A document is a list of expressions, one to a line: a header, a key and its value, or nothing, each
with an optional comment. `parse` gives the entries of its root table, or fails; what exactly is
wrong is not told.
-/
namespace LineAsm.Toml

/-! ## Blank space and comments -/

/-- Skips a comment, if one starts here. -/
def comment? : List Char → Option (List Char)
  | '#' :: cs =>
    let line := cs.takeWhile fun c => c != '\n' && c != '\r'
    if line.all isPrintable then some (cs.dropWhile fun c => c != '\n' && c != '\r') else none
  | cs => some cs

/-- Skips blank space, comments and line ends. -/
def skipTrivia : (bound : Nat) → List Char → Option (List Char)
  | 0, cs => some cs
  | bound + 1, cs =>
    (comment? (skipSpace cs)).bind fun rest =>
      match newline? rest with
      | some rest => skipTrivia bound rest
      | none => some rest

/-! ## Keys -/

def isBareKeyChar (c : Char) : Bool := c.isAlphanum || c == '-' || c == '_'

/-- Reads one part of a key. -/
def simpleKey? (bound : Nat) (cs : List Char) : Option (String × List Char) :=
  match cs with
  | '"' :: rest => (basicString bound rest).map fun (text, rest) => (String.ofList text, rest)
  | '\'' :: rest => (literalString rest).map fun (text, rest) => (String.ofList text, rest)
  | _ =>
    let name := cs.takeWhile isBareKeyChar
    if name.isEmpty then none else some (String.ofList name, cs.dropWhile isBareKeyChar)

/-- How many parts a key may have, and how deep arrays and inline tables may nest. -/
def maxNesting : Nat := 79

/-- Reads at most `room` parts of a key, with blank space around each. -/
def keyWithin (bound : Nat) : (room : Nat) → Reader (List String)
  | 0, _ => none
  | room + 1, cs => do
    let (part, rest) ← simpleKey? bound (skipSpace cs)
    match skipSpace rest with
    | '.' :: rest => do
      let (parts, rest) ← keyWithin bound room rest
      return (part :: parts, rest)
    | rest => return ([part], rest)

/-- Reads a key. -/
def key? (bound : Nat) : Reader (List String) := keyWithin bound maxNesting

/-! ## Values -/

/-- Reads the items of an array up to its closing bracket. -/
def arrayItems (value : Reader Value) : (bound : Nat) → Reader (List Value)
  | 0, _ => none
  | bound + 1, cs => do
    match ← skipTrivia bound cs with
    | ']' :: rest => return ([], rest)
    | cs =>
      let (item, rest) ← value cs
      match ← skipTrivia bound rest with
      | ',' :: rest => do
        let (items, rest) ← arrayItems value bound rest
        return (item :: items, rest)
      | ']' :: rest => return ([item], rest)
      | _ => none

/-- Reads a key, the equals sign and a value. -/
def pair? (value : Reader Value) (bound : Nat) (cs : List Char) :
    Option ((List String × Value) × List Char) := do
  let (key, rest) ← key? bound cs
  let (v, rest) ← value (skipSpace (← character? '=' rest))
  return ((key, v), rest)

/-- Reads the pairs of an inline table up to its closing brace; there is at least one. -/
def inlinePairs (value : Reader Value) : (bound : Nat) → Entries Value → Reader (Entries Value)
  | 0, _, _ => none
  | bound + 1, entries, cs => do
    let ((key, v), rest) ← pair? value bound cs
    let entries ← addInline? v key entries
    match skipSpace rest with
    | ',' :: rest => inlinePairs value bound entries rest
    | '\x7d' :: rest => return (entries, rest)
    | _ => none

/-- Reads a value inside which `room` more arrays or inline tables may nest. -/
def valueWithin (bound : Nat) : (room : Nat) → Reader Value
  | room, cs =>
    match cs with
    | [] => none
    | c :: rest =>
      if c = '"' ∨ c = '\'' then (string? bound cs).map fun (text, rest) => (.text text, rest)
      else if c = '[' then
        match room with
        | 0 => none
        | room + 1 =>
          (arrayItems (valueWithin bound room) bound rest).map fun (items, rest) =>
            (.array items, rest)
      else if c = '\x7b' then
        match room with
        | 0 => none
        | room + 1 =>
          match skipSpace rest with
          | '\x7d' :: rest => some (.table .header [], rest)
          | _ =>
            (inlinePairs (valueWithin bound room) bound [] rest).map fun (entries, rest) =>
              (.table .header entries, rest)
      else if c = 't' then (literal? "true".toList cs).map (.boolean true, ·)
      else if c = 'f' then (literal? "false".toList cs).map (.boolean false, ·)
      else if c = 'i' ∨ c = 'n' then special? cs
      else if c = '+' ∨ c = '-' ∨ c.isDigit then number? cs
      else none

/-! ## Documents -/

/-- Reads a header: a key in single or in double brackets. -/
def header? (bound : Nat) (cs : List Char) : Option ((Bool × List String) × List Char) :=
  match cs with
  | '[' :: '[' :: rest => do
    let (path, rest) ← key? bound rest
    return ((true, path), ← literal? "]]".toList rest)
  | '[' :: rest => do
    let (path, rest) ← key? bound rest
    return ((false, path), ← character? ']' rest)
  | _ => none

/-- Takes in the expression at the start of a text, if there is one. -/
def expression? (bound : Nat) (d : Draft) (cs : List Char) : Option (Draft × List Char) :=
  match cs with
  | [] | '#' :: _ | '\n' :: _ | '\r' :: _ => some (d, cs)
  | '[' :: _ => do
    let ((element, path), rest) ← header? bound cs
    return (← d.open? element path, rest)
  | _ => do
    let ((key, v), rest) ← pair? (valueWithin bound maxNesting) bound cs
    return (← d.set? key v, rest)

/-- Takes in expression after expression up to the end of the text. -/
def expressions : (bound : Nat) → Draft → List Char → Option Draft
  | 0, _, _ => none
  | bound + 1, d, cs => do
    let (d, rest) ← expression? (bound + 1) d (skipSpace cs)
    match ← comment? (skipSpace rest) with
    | [] => return d
    | rest => expressions bound d (← newline? rest)

/-- Reads a document. A byte order mark in front does not count. -/
def parse (text : String) : Option (Entries Node) :=
  let cs :=
    match text.toList with
    | '\ufeff' :: cs => cs
    | cs => cs
  (expressions (cs.length + 1) {} cs).map (·.entries)

end LineAsm.Toml
