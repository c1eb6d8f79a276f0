/-!
# Machine words

Values are signed integers of 64 bits. Arithmetic is done on `Int` and comes back through
`Word.ofInt?`, which refuses what does not fit, so no operation wraps.

A numeral is an optional minus sign and decimal digits; leading zeros are allowed when reading and
never written.
-/
namespace LineAsm

/-- A value of a register, a memory cell or a stack entry. -/
abbrev Word := Int64

namespace Word

/-- The least word, `-2^63`. -/
def least : Int := -9223372036854775808

/-- The greatest word, `2^63 - 1`. -/
def greatest : Int := 9223372036854775807

/-- The word with a given value, if there is one. -/
def ofInt? (n : Int) : Option Word :=
  if least ≤ n ∧ n ≤ greatest then some (Int64.ofInt n) else none

/-- The shortest numeral of a word. -/
def render (w : Word) : String := w.toInt.repr

end Word

/-- An optional minus sign and at least one digit. -/
def isNumeral : List Char → Bool
  | '-' :: digits => !digits.isEmpty && digits.all Char.isDigit
  | digits => !digits.isEmpty && digits.all Char.isDigit

/-- The value of a numeral. -/
def numeralValue : List Char → Int
  | '-' :: digits => -(Nat.ofDigitChars 10 digits 0 : Int)
  | digits => (Nat.ofDigitChars 10 digits 0 : Int)

end LineAsm
