/-!
# JSON texts

A JSON value is given as its text at a depth of indentation. Objects and arrays that are not empty
have a line for every member, indented by two spaces a level.
-/
namespace LineAsm.Json

/-- A value, as its text at a depth of indentation. -/
abbrev Value := (depth : Nat) → String

def hexDigits (n : Nat) : List Char := (Nat.toDigits 16 n).leftpad 4 '0'

/-- A character inside a string. -/
def escapeChar (c : Char) : List Char :=
  match c with
  | '"' => ['\\', '"']
  | '\\' => ['\\', '\\']
  | '\x08' => ['\\', 'b']
  | '\x0c' => ['\\', 'f']
  | '\n' => ['\\', 'n']
  | '\r' => ['\\', 'r']
  | '\t' => ['\\', 't']
  | c => if c < ' ' then ['\\', 'u'] ++ hexDigits c.toNat else [c]

def quote (text : String) : String :=
  String.ofList ('"' :: text.toList.flatMap escapeChar ++ ['"'])

def string (text : String) : Value := fun _ => quote text

/-- A number that is already written. -/
def number (digits : String) : Value := fun _ => digits

/-- The start of a line at a depth. -/
def lineStart (depth : Nat) : String := "\n" ++ String.ofList (List.replicate (2 * depth) ' ')

/-- Members between an opening and a closing sign. -/
def enclose (opening closing : String) (members : List Value) : Value := fun depth =>
  if members.isEmpty then opening ++ closing
  else
    opening ++ ",".intercalate (members.map fun m => lineStart (depth + 1) ++ m (depth + 1)) ++
      lineStart depth ++ closing

def array (items : List Value) : Value := enclose "[" "]" items

def object (fields : List (String × Value)) : Value :=
  enclose "\x7b" "\x7d" (fields.map fun (name, value) => fun depth =>
    quote name ++ ": " ++ value depth)

end LineAsm.Json
