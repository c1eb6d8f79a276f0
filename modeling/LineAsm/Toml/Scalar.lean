import LineAsm.Number
import LineAsm.Toml.Value

/-!
# Scalars of a document

Readers take a value off the front of a text and give it with the rest of the text, or fail. Where a
reader repeats a step, `bound` is how often it may at most; the length of the text is always enough,
since every step takes a character off.
-/
namespace LineAsm.Toml

/-- Reads something at the start of a text. -/
abbrev Reader (α : Type) := List Char → Option (α × List Char)

def isSpace (c : Char) : Bool := c == ' ' || c == '\t'

def skipSpace (cs : List Char) : List Char := cs.dropWhile isSpace

/-- Takes a given character off. -/
def character? (expected : Char) : List Char → Option (List Char)
  | c :: cs => if c = expected then some cs else none
  | [] => none

/-- Takes a given text off. -/
def literal? : (expected cs : List Char) → Option (List Char)
  | [], cs => some cs
  | e :: es, c :: cs => if e = c then literal? es cs else none
  | _ :: _, [] => none

/-- Takes a line end off. -/
def newline? : List Char → Option (List Char)
  | '\n' :: cs => some cs
  | '\r' :: '\n' :: cs => some cs
  | _ => none

/-- Characters allowed in comments and strings: all but controls, the tab excepted. -/
def isPrintable (c : Char) : Bool := c == '\t' || (decide (' ' ≤ c) && c != '\x7f')

/-! ## Strings -/

/-- The value of a number of hexadecimal digits. -/
def hexadecimal? (count : Nat) (cs : List Char) : Option (Nat × List Char) :=
  let digits := cs.take count
  if digits.length = count ∧ digits.all fun c =>
      c.isDigit || (decide ('a' ≤ c.toLower) && decide (c.toLower ≤ 'f')) then
    some (digits.foldl (fun n c =>
      16 * n + if c.isDigit then c.toNat - '0'.toNat else c.toLower.toNat - 'a'.toNat + 10) 0,
      cs.drop count)
  else none

/-- The character with a number. -/
def scalar? (read : Nat × List Char) : Option (Char × List Char) :=
  if h : read.1.isValidChar then some (Char.ofNatAux read.1 h, read.2) else none

/-- The character that an escape stands for, behind its backslash. -/
def escape? : Reader Char
  | 'b' :: cs => some ('\x08', cs)
  | 't' :: cs => some ('\t', cs)
  | 'n' :: cs => some ('\n', cs)
  | 'f' :: cs => some ('\x0c', cs)
  | 'r' :: cs => some ('\r', cs)
  | '"' :: cs => some ('"', cs)
  | '\\' :: cs => some ('\\', cs)
  | 'u' :: cs => (hexadecimal? 4 cs).bind scalar?
  | 'U' :: cs => (hexadecimal? 8 cs).bind scalar?
  | _ => none

/-- The rest of a string on one line, up to its closing quote. -/
def basicString : (bound : Nat) → Reader (List Char)
  | 0, _ => none
  | bound + 1, cs =>
    match cs with
    | '"' :: rest => some ([], rest)
    | '\\' :: rest => do
      let (c, rest) ← escape? rest
      let (text, rest) ← basicString bound rest
      return (c :: text, rest)
    | c :: rest =>
      if isPrintable c then do
        let (text, rest) ← basicString bound rest
        return (c :: text, rest)
      else none
    | [] => none

/-- The rest of a string without escapes. -/
def literalString (cs : List Char) : Option (List Char × List Char) :=
  let text := cs.takeWhile (· != '\'')
  if text.all isPrintable then
    (character? '\'' (cs.dropWhile (· != '\''))).map (text, ·)
  else none

/-- Skips blanks and line ends after a backslash at the end of a line. -/
def skipLines : (bound : Nat) → List Char → List Char
  | 0, cs => cs
  | bound + 1, cs =>
    match newline? (skipSpace cs) with
    | some rest => skipLines bound rest
    | none => skipSpace cs

/-- The quotes that end a string of several lines: three, behind up to two that belong to it. -/
def closing? (quote : Char) (cs : List Char) : Option (List Char × List Char) :=
  let quotes := (cs.takeWhile (· == quote)).length
  if quotes < 3 then none
  else
    let inside := min (quotes - 3) 2
    some (List.replicate inside quote, cs.drop (inside + 3))

/-- The rest of a string of several lines, with or without escapes. -/
def multilineString (quote : Char) (escapes : Bool) : (bound : Nat) → Reader (List Char)
  | 0, _ => none
  | bound + 1, cs =>
    match closing? quote cs with
    | some closed => some closed
    | none =>
      match cs with
      | [] => none
      | c :: rest =>
        if c = '\\' ∧ escapes then
          match newline? (skipSpace rest) with
          | some rest => multilineString quote escapes bound (skipLines bound rest)
          | none => do
            let (c, rest) ← escape? rest
            let (text, rest) ← multilineString quote escapes bound rest
            return (c :: text, rest)
        else
          match newline? cs with
          | some rest => do
            let (text, rest) ← multilineString quote escapes bound rest
            return ('\n' :: text, rest)
          | none =>
            if isPrintable c then do
              let (text, rest) ← multilineString quote escapes bound rest
              return (c :: text, rest)
            else none

/-- A line end right behind the opening quotes does not count. -/
def dropFirstNewline (cs : List Char) : List Char := (newline? cs).getD cs

/-- Reads a string, of one line or of several. -/
def string? (bound : Nat) (cs : List Char) : Option (String × List Char) :=
  let read :=
    match cs with
    | '"' :: '"' :: '"' :: rest => multilineString '"' true bound (dropFirstNewline rest)
    | '"' :: rest => basicString bound rest
    | '\'' :: '\'' :: '\'' :: rest => multilineString '\'' false bound (dropFirstNewline rest)
    | '\'' :: rest => literalString rest
    | _ => none
  read.map fun (text, rest) => (String.ofList text, rest)

/-! ## Numbers -/

/-- Digits of a class, with single underscores between them; the underscores are dropped. -/
def digits? (isDigit : Char → Bool) : Reader (List Char)
  | c :: '_' :: cs =>
    if isDigit c then (digits? isDigit cs).map fun (ds, rest) => (c :: ds, rest) else none
  | c :: cs =>
    if isDigit c then
      match digits? isDigit cs with
      | some (ds, rest) => some (c :: ds, rest)
      | none => if (cs.head?.map isDigit).getD false then none else some ([c], cs)
    else none
  | [] => none

/-- A sign, if there is one. -/
def sign : List Char → Bool × List Char
  | '-' :: cs => (true, cs)
  | '+' :: cs => (false, cs)
  | cs => (false, cs)

/-- Decimal digits without a leading zero, or one zero. -/
def decimal? : Reader (List Char)
  | '0' :: cs => some (['0'], cs)
  | cs => digits? Char.isDigit cs

def decimalValue (digits : List Char) : Nat := Nat.ofDigitChars 10 digits 0

/-- The digits behind a decimal point. -/
def fraction? : Reader (List Char)
  | '.' :: cs => digits? Char.isDigit cs
  | _ => none

/-- A power of ten behind its mark. -/
def power? : Reader Int
  | c :: cs =>
    if c = 'e' ∨ c = 'E' then
      let (negative, cs) := sign cs
      (digits? Char.isDigit cs).map fun (ds, rest) =>
        (if negative then -(decimalValue ds : Int) else decimalValue ds, rest)
    else none
  | [] => none

/-- A number with a fraction or a power, in decimal digits. Plus infinity is refused where it comes
from digits. -/
def float? (cs : List Char) : Option (Value × List Char) := do
  let (negative, afterSign) := sign cs
  let (whole, afterWhole) ← decimal? afterSign
  let (places, power, rest) ←
    match power? afterWhole with
    | some (power, rest) => some ([], power, rest)
    | none =>
      (fraction? afterWhole).map fun (places, afterPlaces) =>
        match power? afterPlaces with
        | some (power, rest) => (places, power, rest)
        | none => (places, 0, afterPlaces)
  let x := Number.ofDecimal negative (decimalValue (whole ++ places)) (power - places.length)
  if x == 1.0 / 0.0 then none else some (.float x, rest)

/-- Infinity and not-a-number, with an optional sign. -/
def special? (cs : List Char) : Option (Value × List Char) :=
  let (negative, afterSign) := sign cs
  match literal? "inf".toList afterSign, literal? "nan".toList afterSign with
  | some rest, _ => some (.float (if negative then -(1.0 / 0.0) else 1.0 / 0.0), rest)
  | none, some rest => some (.float (0.0 / 0.0), rest)
  | none, none => none

/-- An integer of 64 bits. -/
def fitting? (n : Int) (rest : List Char) : Option (Value × List Char) :=
  if -9223372036854775808 ≤ n ∧ n ≤ 9223372036854775807 then some (.integer n, rest) else none

def isHexDigit (c : Char) : Bool :=
  c.isDigit || (decide ('a' ≤ c) && decide (c ≤ 'f')) || (decide ('A' ≤ c) && decide (c ≤ 'F'))

/-- The value of digits in a base up to sixteen. -/
def valueInBase (base : Nat) (digits : List Char) : Nat :=
  digits.foldl (fun n c =>
    base * n + if c.isDigit then c.toNat - '0'.toNat else c.toLower.toNat - 'a'.toNat + 10) 0

/-- Digits in a base. -/
def based? (base : Nat) (isDigit : Char → Bool) (cs : List Char) : Option (Value × List Char) :=
  (digits? isDigit cs).bind fun (ds, rest) => fitting? (valueInBase base ds) rest

/-- Reads an integer: decimal with an optional sign, or in base 16, 8 or 2. -/
def integer? (cs : List Char) : Option (Value × List Char) :=
  match cs with
  | '0' :: 'x' :: rest => based? 16 isHexDigit rest
  | '0' :: 'o' :: rest => based? 8 (fun c => decide ('0' ≤ c) && decide (c ≤ '7')) rest
  | '0' :: 'b' :: rest => based? 2 (fun c => c == '0' || c == '1') rest
  | _ =>
    let (negative, afterSign) := sign cs
    (decimal? afterSign).bind fun (ds, rest) =>
      fitting? (if negative then -(decimalValue ds : Int) else decimalValue ds) rest

/-! ## Dates and times -/

/-- A number of exactly `count` digits in a range. -/
def field? (count least greatest : Nat) (cs : List Char) : Option (Nat × List Char) :=
  let digits := cs.take count
  let n := decimalValue digits
  if digits.length = count ∧ digits.all Char.isDigit ∧ least ≤ n ∧ n ≤ greatest then
    some (n, cs.drop count)
  else none

def isLeapYear (year : Nat) : Bool := year % 4 == 0 && (year % 100 != 0 || year % 400 == 0)

def daysOfMonth (year month : Nat) : Nat :=
  if month = 2 then if isLeapYear year then 29 else 28
  else if month = 4 ∨ month = 6 ∨ month = 9 ∨ month = 11 then 30
  else 31

/-- Skips a date. -/
def date? (cs : List Char) : Option (List Char) := do
  let (year, cs) ← field? 4 0 9999 cs
  let (month, cs) ← field? 2 1 12 (← character? '-' cs)
  let (_, cs) ← field? 2 1 (daysOfMonth year month) (← character? '-' cs)
  return cs

/-- Skips a time of day. -/
def time? (cs : List Char) : Option (List Char) := do
  let (_, cs) ← field? 2 0 23 cs
  let (_, cs) ← field? 2 0 59 (← character? ':' cs)
  let (_, cs) ← field? 2 0 60 (← character? ':' cs)
  match cs with
  | '.' :: places =>
    if (places.takeWhile Char.isDigit).isEmpty then none
    else return places.dropWhile Char.isDigit
  | _ => return cs

/-- Skips the distance from universal time, if one is given. -/
def offset? : List Char → Option (List Char)
  | 'Z' :: cs | 'z' :: cs => some cs
  | '+' :: cs | '-' :: cs => do
    let (_, cs) ← field? 2 0 23 cs
    let (_, cs) ← field? 2 0 59 (← character? ':' cs)
    return cs
  | cs => some cs

/-- Reads a date, a time, or both with an optional offset. -/
def moment? (cs : List Char) : Option (Value × List Char) :=
  match date? cs with
  | none => (time? cs).map (.moment, ·)
  | some afterDate =>
    match afterDate with
    | c :: rest =>
      if c = 'T' ∨ c = 't' then ((time? rest).bind offset?).map (.moment, ·)
      else if c = ' ' ∧ (rest.head?.map Char.isDigit).getD false then
        ((time? rest).bind offset?).map (.moment, ·)
      else some (.moment, afterDate)
    | [] => some (.moment, [])

/-- Reads what starts with a sign or a digit. -/
def number? (cs : List Char) : Option (Value × List Char) :=
  (moment? cs) <|> (float? cs) <|> (special? cs) <|> (integer? cs)

end LineAsm.Toml
